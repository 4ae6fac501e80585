import VosStack.Timeout.Transitions
import Mathlib.Logic.Relation

/-!
# The callwheel and its scan

Of the callout subsystem this module keeps the lists, the scan and the event timer: a `View`.
What the executors and the threads do is seen only as far as it touches these. `View.Move` has
one constructor for each way to change them, and `moves_of_trans` says that a step of the
subsystem is a sequence of moves.

The condition `ok` on the times of two successive scans is a parameter of the moves.
-/

namespace VosStack.Timeout

/-- What the lists and the scan know about a callout. -/
structure Entry where
  time : ℕ
  precision : ℕ
  pending : Bool
  processed : Bool
  deriving DecidableEq, Repr

/-- The entry of a callout. -/
def Callout.entry {Lock Call : Type*} (k : Callout Lock Call) : Entry :=
  ⟨k.time, k.precision, k.pending, k.processed⟩

/-- The lists, the scan and the event timer. -/
structure View (Cid : Type*) where
  entry : Cid → Entry
  callwheel : ℕ → List Cid
  expireq : List Cid
  next : Option Cid
  bucket : ℕ
  firstevent : ℕ
  lastscan : ℕ
  now : ℕ
  nextcall : ℕ
  busy : Bool
  started : ℕ
  scan : Option (Scan Cid)
  /-- the clock interrupt is in `softclock_call_cc` -/
  calling : Bool

namespace View

variable {Cid Lock : Type*} [DecidableEq Cid] (cfg : Setup Lock) (v : View Cid)

/-- `cc_lock` is free. -/
def Free : Prop := ∀ s, v.scan = some s → v.calling = true

/-- A callout on the wheel is taken off. -/
def unwheel (c : Cid) (b : ℕ) : View Cid :=
  { v with
    entry := Function.update v.entry c { v.entry c with pending := false }
    next := Queue.unlink (v.callwheel b) c v.next
    callwheel := Function.update v.callwheel b ((v.callwheel b).erase c) }

/-- A callout of `cc_expireq` is taken off. -/
def unexpire (c : Cid) : View Cid :=
  { v with
    entry := Function.update v.entry c { v.entry c with pending := false }
    expireq := v.expireq.erase c }

/-- A callout is armed. -/
def arm (c : Cid) (time precision : ℕ) : View Cid :=
  let b := cfg.calloutGetBucket time
  { v with
    entry := Function.update v.entry c ⟨time, precision, true, false⟩
    callwheel := Function.update v.callwheel b (c :: v.callwheel b)
    next := if v.bucket = b then some c else v.next
    firstevent := min (time + precision) v.firstevent
    nextcall :=
      if time + precision < v.firstevent ∧ v.busy = false then min (time + precision) v.nextcall
      else v.nextcall }

/-- The scan calls a direct callout. -/
def takeDirect (c : Cid) (b : ℕ) : View Cid :=
  { v with
    entry := Function.update v.entry c { v.entry c with pending := false }
    next := Queue.next (v.callwheel b) c
    bucket := b
    callwheel := Function.update v.callwheel b ((v.callwheel b).erase c)
    calling := true }

/-- The scan moves a callout to `cc_expireq`. -/
def expire (s : Scan Cid) (c : Cid) (b : ℕ) : View Cid :=
  { v with
    entry := Function.update v.entry c { v.entry c with processed := true }
    callwheel := Function.update v.callwheel b ((v.callwheel b).erase c)
    expireq := v.expireq ++ [c]
    scan := some { s with tmp := Queue.next (v.callwheel b) c } }

/-- The start of a scan. -/
def process (now : ℕ) : View Cid :=
  { v with
    now := now
    nextcall := sbtMax
    lastscan := now
    scan := some (cfg.beginScan v.lastscan now v.callwheel) }

/-- The end of a scan. -/
def done (s : Scan Cid) : View Cid :=
  { v with
    firstevent := s.last
    nextcall := if v.busy then v.nextcall else min s.last v.nextcall
    scan := none }

/-- What can happen to the lists, the scan and the event timer. -/
inductive Move (ok : ℕ → ℕ → Prop) : View Cid → View Cid → Prop
  | configtimer {v : View Cid} (now period : ℕ) (hnow : v.now ≤ now) :
      Move ok v
        { v with now := now, nextcall := now + period, started := now + period, busy := false }
  | stoptimer {v : View Cid} : Move ok v { v with busy := true }
  | tick {v : View Cid} (now : ℕ) (hnow : v.now ≤ now) (hscan : v.scan = none)
      (hbusy : v.busy = false) (hnext : now < v.nextcall) : Move ok v { v with now := now }
  | process {v : View Cid} (now : ℕ) (hnow : v.now ≤ now) (hscan : v.scan = none)
      (hok : ok v.lastscan now) : Move ok v (v.process cfg now)
  | nextBucket {v : View Cid} (s : Scan Cid) (hscan : v.scan = some s)
      (hcall : v.calling = false) (htmp : s.tmp = none)
      (hmore : (s.firstb + 1 - s.lastb).toInt ≤ 0) :
      Move ok v { v with scan := some (cfg.nextBucket s v.callwheel) }
  | done {v : View Cid} (s : Scan Cid) (hscan : v.scan = some s) (hcall : v.calling = false)
      (htmp : s.tmp = none) (hmore : 0 < (s.firstb + 1 - s.lastb).toInt) :
      Move ok v (v.done s)
  | takeDirect {v : View Cid} (s : Scan Cid) (c : Cid) (hscan : v.scan = some s)
      (hcall : v.calling = false) (htmp : s.tmp = some c) (hdue : (v.entry c).time ≤ s.now) :
      Move ok v (v.takeDirect c (cfg.index s.firstb))
  | expire {v : View Cid} (s : Scan Cid) (c : Cid) (hscan : v.scan = some s)
      (hcall : v.calling = false) (htmp : s.tmp = some c) (hdue : (v.entry c).time ≤ s.now) :
      Move ok v (v.expire s c (cfg.index s.firstb))
  | lookAt {v : View Cid} (s : Scan Cid) (c : Cid) (hscan : v.scan = some s)
      (hcall : v.calling = false) (htmp : s.tmp = some c) (hdue : s.now < (v.entry c).time) :
      Move ok v
        { v with
          scan := some
            { s.lookAt (v.entry c).time (v.entry c).precision with
              tmp := Queue.next (v.callwheel (cfg.index s.firstb)) c } }
  | resume {v : View Cid} (hcall : v.calling = true) :
      Move ok v
        { v with
          scan := v.scan.map fun s => { s with tmp := v.next }
          next := none
          calling := false }
  | unexpire {v : View Cid} (c : Cid) (hmem : c ∈ v.expireq) : Move ok v (v.unexpire c)
  | unwheel {v : View Cid} (c : Cid) (b : ℕ) (hfree : v.Free) (hmem : c ∈ v.callwheel b) :
      Move ok v (v.unwheel c b)
  | arm {v : View Cid} (c : Cid) (time precision : ℕ) (hfree : v.Free)
      (hpend : (v.entry c).pending = false) (htime : v.lastscan ≤ time) :
      Move ok v (v.arm cfg c time precision)

/-- Several moves. -/
def Moves (ok : ℕ → ℕ → Prop) : View Cid → View Cid → Prop :=
  Relation.ReflTransGen (Move cfg ok)

/-! ### The lists and the flags -/

/-- The flags of a callout say in which list it is linked, and it is linked there once. -/
structure Lists (entry : Cid → Entry) (callwheel : ℕ → List Cid) (expireq : List Cid) :
    Prop where
  mem_callwheel : ∀ c b, c ∈ callwheel b ↔ (entry c).pending = true ∧
    (entry c).processed = false ∧ cfg.calloutGetBucket (entry c).time = b
  mem_expireq : ∀ c, c ∈ expireq ↔ (entry c).pending = true ∧ (entry c).processed = true
  nodup_callwheel : ∀ b, (callwheel b).Nodup
  nodup_expireq : expireq.Nodup

variable {cfg} {v}
variable {entry : Cid → Entry} {callwheel : ℕ → List Cid} {expireq : List Cid}
variable {c : Cid} {e : Entry} {b : ℕ}

omit [DecidableEq Cid] in
/-- A callout is in one bucket only. -/
theorem Lists.bucket_unique (h : Lists cfg entry callwheel expireq) {b' : ℕ}
    (hb : c ∈ callwheel b) (hb' : c ∈ callwheel b') : b = b' := by
  rw [← ((h.mem_callwheel c b).mp hb).2.2, ((h.mem_callwheel c b').mp hb').2.2]

/-- A callout is unlinked from the wheel. -/
theorem Lists.unwheel (h : Lists cfg entry callwheel expireq) (hc : c ∈ callwheel b)
    (he : e.pending = false) :
    Lists cfg (Function.update entry c e)
      (Function.update callwheel b ((callwheel b).erase c)) expireq where
  mem_callwheel := by
    intro x b'
    by_cases hx : x = c
    · have hnot : c ∉ Function.update callwheel b ((callwheel b).erase c) b' := by
        by_cases hb : b' = b
        · rw [hb, Function.update_self]
          exact (h.nodup_callwheel b).not_mem_erase
        · rw [Function.update_of_ne hb]
          exact fun hmem => hb (h.bucket_unique hmem hc)
      rw [hx, Function.update_self, he]
      simpa using hnot
    · rw [Function.update_of_ne hx, ← h.mem_callwheel x b']
      by_cases hb : b' = b
      · rw [hb, Function.update_self, List.mem_erase_of_ne hx]
      · rw [Function.update_of_ne hb]
  mem_expireq := by
    intro x
    by_cases hx : x = c
    · have hproc := ((h.mem_callwheel c b).mp hc).2.1
      have hnot : c ∉ expireq := fun hmem => by
        have := ((h.mem_expireq c).mp hmem).2
        rw [hproc] at this
        exact Bool.false_ne_true this
      rw [hx, Function.update_self, he]
      simpa using hnot
    · rw [Function.update_of_ne hx]
      exact h.mem_expireq x
  nodup_callwheel := by
    intro b'
    by_cases hb : b' = b
    · rw [hb, Function.update_self]
      exact (h.nodup_callwheel b).erase c
    · rw [Function.update_of_ne hb]
      exact h.nodup_callwheel b'
  nodup_expireq := h.nodup_expireq

/-- A callout is unlinked from `cc_expireq`. -/
theorem Lists.unexpire (h : Lists cfg entry callwheel expireq) (hc : c ∈ expireq)
    (he : e.pending = false) :
    Lists cfg (Function.update entry c e) callwheel (expireq.erase c) where
  mem_callwheel := by
    intro x b
    by_cases hx : x = c
    · have hproc := ((h.mem_expireq c).mp hc).2
      have hnot : c ∉ callwheel b := fun hmem => by
        have := ((h.mem_callwheel c b).mp hmem).2.1
        rw [hproc] at this
        exact Bool.false_ne_true this.symm
      rw [hx, Function.update_self, he]
      simpa using hnot
    · rw [Function.update_of_ne hx]
      exact h.mem_callwheel x b
  mem_expireq := by
    intro x
    by_cases hx : x = c
    · rw [hx, Function.update_self, he]
      simpa using h.nodup_expireq.not_mem_erase
    · rw [Function.update_of_ne hx, List.mem_erase_of_ne hx]
      exact h.mem_expireq x
  nodup_callwheel := h.nodup_callwheel
  nodup_expireq := h.nodup_expireq.erase c

omit [DecidableEq Cid] in
/-- A callout that is not pending is in no list. -/
theorem Lists.not_mem (h : Lists cfg entry callwheel expireq)
    (hc : (entry c).pending = false) : (∀ b, c ∉ callwheel b) ∧ c ∉ expireq := by
  constructor
  · intro b hmem
    have := ((h.mem_callwheel c b).mp hmem).1
    rw [hc] at this
    exact Bool.false_ne_true this
  · intro hmem
    have := ((h.mem_expireq c).mp hmem).1
    rw [hc] at this
    exact Bool.false_ne_true this

/-- A callout is linked at the head of its bucket. -/
theorem Lists.insert (h : Lists cfg entry callwheel expireq)
    (hc : (entry c).pending = false) (hpend : e.pending = true) (hproc : e.processed = false)
    (hb : cfg.calloutGetBucket e.time = b) :
    Lists cfg (Function.update entry c e)
      (Function.update callwheel b (c :: callwheel b)) expireq where
  mem_callwheel := by
    intro x b'
    by_cases hx : x = c
    · rw [hx, Function.update_self, hpend, hproc, hb]
      by_cases hb' : b' = b
      · rw [hb', Function.update_self]
        simp
      · rw [Function.update_of_ne hb']
        simpa [Ne.symm hb'] using (h.not_mem hc).1 b'
    · rw [Function.update_of_ne hx, ← h.mem_callwheel x b']
      by_cases hb' : b' = b
      · rw [hb', Function.update_self, List.mem_cons, or_iff_right hx]
      · rw [Function.update_of_ne hb']
  mem_expireq := by
    intro x
    by_cases hx : x = c
    · rw [hx, Function.update_self, hproc]
      simpa using (h.not_mem hc).2
    · rw [Function.update_of_ne hx]
      exact h.mem_expireq x
  nodup_callwheel := by
    intro b'
    by_cases hb' : b' = b
    · rw [hb', Function.update_self]
      exact List.nodup_cons.mpr ⟨(h.not_mem hc).1 b, h.nodup_callwheel b⟩
    · rw [Function.update_of_ne hb']
      exact h.nodup_callwheel b'
  nodup_expireq := h.nodup_expireq

/-- A callout is linked at the tail of `cc_expireq`. -/
theorem Lists.push (h : Lists cfg entry callwheel expireq) (hc : (entry c).pending = false)
    (hpend : e.pending = true) (hproc : e.processed = true) :
    Lists cfg (Function.update entry c e) callwheel (expireq ++ [c]) where
  mem_callwheel := by
    intro x b
    by_cases hx : x = c
    · rw [hx, Function.update_self, hproc]
      simpa using (h.not_mem hc).1 b
    · rw [Function.update_of_ne hx]
      exact h.mem_callwheel x b
  mem_expireq := by
    intro x
    by_cases hx : x = c
    · rw [hx, Function.update_self, hpend, hproc]
      simp
    · rw [Function.update_of_ne hx, ← h.mem_expireq x]
      simp [hx]
  nodup_callwheel := h.nodup_callwheel
  nodup_expireq := by
    rw [← List.concat_eq_append]
    exact h.nodup_expireq.concat (h.not_mem hc).2

/-- A callout goes from the wheel to `cc_expireq`. -/
theorem Lists.expire (h : Lists cfg entry callwheel expireq) (hc : c ∈ callwheel b)
    (hpend : e.pending = true) (hproc : e.processed = true) :
    Lists cfg (Function.update entry c e)
      (Function.update callwheel b ((callwheel b).erase c)) (expireq ++ [c]) := by
  have hout := h.unwheel (e := { e with pending := false }) hc rfl
  have hin := hout.push (c := c) (e := e) (by rw [Function.update_self]) hpend hproc
  rwa [Function.update_idem] at hin

/-! ### The cursor of the scan -/

/-- The entry the scan looks at next: while it calls a handler this is `cc_next`. -/
def cursor (v : View Cid) (s : Scan Cid) : Option Cid := if v.calling then v.next else s.tmp

/-- The lists are in order, and the scan points into the bucket it is at. -/
structure Linked (cfg : Setup Lock) (v : View Cid) : Prop where
  lists : Lists cfg v.entry v.callwheel v.expireq
  cursor : ∀ s, v.scan = some s → ∀ c, v.cursor s = some c →
    c ∈ v.callwheel (cfg.index s.firstb)
  bucket : ∀ s, v.scan = some s → v.calling = true → v.bucket = cfg.index s.firstb
  scanning : v.calling = true → v.scan ≠ none

namespace Linked

omit [DecidableEq Cid] in
/-- The entry under examination is on the wheel. -/
theorem tmp_mem (h : Linked cfg v) {s : Scan Cid} (hscan : v.scan = some s)
    (hcall : v.calling = false) (htmp : s.tmp = some c) :
    c ∈ v.callwheel (cfg.index s.firstb) := by
  refine h.cursor s hscan c ?_
  rw [View.cursor, hcall]
  exact htmp

omit [DecidableEq Cid] in
/-- The clock interrupt calls handlers only while it scans. -/
theorem calling_of_scan_none (h : Linked cfg v) (hscan : v.scan = none) :
    v.calling = false := by
  rcases hcall : v.calling with _ | _
  · rfl
  · exact absurd hscan (h.scanning hcall)

/-- A callout is taken off the wheel. -/
theorem unwheel (h : Linked cfg v) (hfree : v.Free) (hmem : c ∈ v.callwheel b) :
    Linked cfg (v.unwheel c b) where
  lists := h.lists.unwheel hmem rfl
  cursor := by
    intro s hscan y hy
    have hcall : v.calling = true := hfree s hscan
    have hin : ∀ z, v.next = some z → z ∈ v.callwheel (cfg.index s.firstb) := by
      intro z hz
      refine h.cursor s hscan z ?_
      rw [View.cursor, hcall]
      exact hz
    have hy : Queue.unlink (v.callwheel b) c v.next = some y := by
      simpa only [View.cursor, View.unwheel, hcall, if_true] using hy
    change y ∈ Function.update v.callwheel b _ (cfg.index s.firstb)
    by_cases hb : cfg.index s.firstb = b
    · rw [hb, Function.update_self]
      exact Queue.unlink_mem (h.lists.nodup_callwheel b) hmem (hb ▸ hin) hy
    · -- the unlinked callout is in another bucket, so that the scan does not point to it
      have hne : v.next ≠ some c := fun heq => hb (h.lists.bucket_unique (hin c heq) hmem)
      rw [Queue.unlink, if_neg hne] at hy
      rw [Function.update_of_ne hb]
      exact hin y hy
  bucket := h.bucket
  scanning := h.scanning

/-- A callout is taken off `cc_expireq`. -/
theorem unexpire (h : Linked cfg v) (hmem : c ∈ v.expireq) : Linked cfg (v.unexpire c) where
  lists := h.lists.unexpire hmem rfl
  cursor := h.cursor
  bucket := h.bucket
  scanning := h.scanning

/-- A callout is armed. -/
theorem arm (h : Linked cfg v) (hfree : v.Free) (hpend : (v.entry c).pending = false)
    (time precision : ℕ) : Linked cfg (v.arm cfg c time precision) where
  lists := h.lists.insert hpend rfl rfl rfl
  cursor := by
    intro s hscan y hy
    have hcall : v.calling = true := hfree s hscan
    have hbucket : v.bucket = cfg.index s.firstb := h.bucket s hscan hcall
    have hy : (if v.bucket = cfg.calloutGetBucket time then some c else v.next) = some y := by
      simpa only [View.cursor, View.arm, hcall, if_true] using hy
    change y ∈ Function.update v.callwheel (cfg.calloutGetBucket time) _ (cfg.index s.firstb)
    by_cases hb : v.bucket = cfg.calloutGetBucket time
    · rw [if_pos hb, Option.some.injEq] at hy
      rw [← hbucket, hb, Function.update_self, ← hy]
      exact List.mem_cons_self
    · rw [if_neg hb] at hy
      rw [Function.update_of_ne (hbucket ▸ hb)]
      refine h.cursor s hscan y ?_
      rw [View.cursor, hcall]
      exact hy
  bucket := h.bucket
  scanning := h.scanning

/-- What comes after the entry that is unlinked stays linked. -/
theorem next_mem (h : Linked cfg v) {y : Cid} (hmem : c ∈ v.callwheel b)
    (hy : Queue.next (v.callwheel b) c = some y) :
    y ∈ Function.update v.callwheel b ((v.callwheel b).erase c) b := by
  have hne : y ≠ c := Queue.ne_of_next (h.lists.nodup_callwheel b) hmem hy
  rw [Function.update_self, List.mem_erase_of_ne hne]
  exact Queue.mem_of_next hy

theorem takeDirect (h : Linked cfg v) {s : Scan Cid} (hscan : v.scan = some s)
    (hmem : c ∈ v.callwheel (cfg.index s.firstb)) :
    Linked cfg (v.takeDirect c (cfg.index s.firstb)) where
  lists := h.lists.unwheel hmem rfl
  cursor := by
    intro s' hscan' y hy
    obtain rfl : s = s' := Option.some.inj (hscan.symm.trans hscan')
    exact h.next_mem hmem hy
  bucket := by
    intro s' hscan' _
    obtain rfl : s = s' := Option.some.inj (hscan.symm.trans hscan')
    rfl
  scanning := by
    intro _
    rw [show (v.takeDirect c (cfg.index s.firstb)).scan = some s from hscan]
    exact Option.some_ne_none s

theorem expire (h : Linked cfg v) {s : Scan Cid} (hcall : v.calling = false)
    (hmem : c ∈ v.callwheel (cfg.index s.firstb)) :
    Linked cfg (v.expire s c (cfg.index s.firstb)) where
  lists := h.lists.expire hmem ((h.lists.mem_callwheel c _).mp hmem).1 rfl
  cursor := by
    intro s' hscan' y hy
    obtain rfl := Option.some.inj hscan'
    have hy : Queue.next (v.callwheel (cfg.index s.firstb)) c = some y := by
      simpa only [View.cursor, View.expire, hcall, Bool.false_eq_true, if_false] using hy
    exact h.next_mem hmem hy
  bucket := by
    intro s' _ hcall'
    exact absurd (hcall.symm.trans hcall') Bool.false_ne_true
  scanning := fun hcall' => absurd (hcall.symm.trans hcall') Bool.false_ne_true

omit [DecidableEq Cid] in
/-- The scan moves on, with the lists as they are. -/
theorem setScan (h : Linked cfg v) (hcall : v.calling = false) {scan : Option (Scan Cid)}
    (hscan : ∀ s, scan = some s → ∀ c, s.tmp = some c → c ∈ v.callwheel (cfg.index s.firstb)) :
    Linked cfg { v with scan := scan } where
  lists := h.lists
  cursor := by
    intro s hs c hc
    refine hscan s hs c ?_
    simpa only [View.cursor, hcall, Bool.false_eq_true, if_false] using hc
  bucket := fun s _ hcall' => absurd (hcall.symm.trans hcall') Bool.false_ne_true
  scanning := fun hcall' => absurd (hcall.symm.trans hcall') Bool.false_ne_true

end Linked

omit [DecidableEq Cid] in
theorem lookAt_firstb (s : Scan Cid) (time precision : ℕ) :
    (s.lookAt time precision).firstb = s.firstb := by
  rw [Scan.lookAt]
  split
  · rfl
  · split <;> rfl

/-- **The lists stay in order.** -/
theorem linked_of_move {ok : ℕ → ℕ → Prop} {v v' : View Cid} (h : Linked cfg v)
    (hm : Move cfg ok v v') : Linked cfg v' := by
  cases hm with
  | configtimer => exact ⟨h.lists, h.cursor, h.bucket, h.scanning⟩
  | stoptimer => exact ⟨h.lists, h.cursor, h.bucket, h.scanning⟩
  | tick => exact ⟨h.lists, h.cursor, h.bucket, h.scanning⟩
  | process now hnow hscan =>
    have hcall : v.calling = false := h.calling_of_scan_none hscan
    refine Linked.setScan (v := { v with now := now, nextcall := sbtMax, lastscan := now })
      ⟨h.lists, h.cursor, h.bucket, h.scanning⟩ hcall ?_
    intro s hs c hc
    obtain rfl := Option.some.inj hs
    exact List.mem_of_head? hc
  | nextBucket s hscan hcall =>
    refine h.setScan hcall ?_
    intro s' hs' c hc
    obtain rfl := Option.some.inj hs'
    exact List.mem_of_head? hc
  | done s hscan hcall =>
    refine Linked.setScan (v := { v with firstevent := s.last, nextcall := _ })
      ⟨h.lists, h.cursor, h.bucket, h.scanning⟩ hcall ?_
    intro s' hs'
    exact absurd hs' (by simp)
  | takeDirect s c hscan hcall htmp => exact h.takeDirect hscan (h.tmp_mem hscan hcall htmp)
  | expire s c hscan hcall htmp => exact h.expire hcall (h.tmp_mem hscan hcall htmp)
  | lookAt s c hscan hcall =>
    refine h.setScan hcall ?_
    intro s' hs' y hy
    obtain rfl := Option.some.inj hs'
    rw [show _ = s.firstb from lookAt_firstb s _ _]
    exact Queue.mem_of_next hy
  | resume hcall =>
    refine ⟨h.lists, ?_, ?_, ?_⟩
    · intro s' hs' c hc
      obtain ⟨s, hs, rfl⟩ := Option.map_eq_some_iff.mp hs'
      refine h.cursor s hs c ?_
      rw [View.cursor, hcall]
      exact hc
    · exact fun s' _ hcall' => absurd hcall' Bool.false_ne_true
    · exact fun hcall' => absurd hcall' Bool.false_ne_true
  | unexpire c hmem => exact h.unexpire hmem
  | unwheel c b hfree hmem => exact h.unwheel hfree hmem
  | arm c time precision hfree hpend => exact h.arm hfree hpend time precision

end View

end VosStack.Timeout
