import VosStack.Timeout.Upkeep
import Mathlib.Tactic.NormNum

/-!
# No callout is missed

A scan of the wheel starts at the bucket of the scan before it. As long as the wheel has not
turned around since then, that is, if the buckets between the two and those of the look-ahead
fit on the wheel (`Setup.Punctual`), a bucket of the wheel stands for one stretch of time. Then

* the scan finds every callout whose time has come, also those that handlers arm meanwhile
  (`Cover`: what is not behind the cursor is still ahead of it), and
* `cc_firstevent`, and with it the time of the next scan, is never later than the last moment
  at which some callout may be called (`Deadline`).
-/

namespace VosStack.Timeout

/-! ### Slots and buckets -/

theorem slot_eq (t : ℕ) : slot t = t / 16777216 := rfl

theorem slot_lookaheadEnd (lastscan now : ℕ) :
    slot (lookaheadEnd lastscan now) =
      slot (now + lookahead (calloutHash lastscan) (calloutHash now)) :=
  Nat.mul_div_cancel _ (by decide)

/-- A scan looks ahead over sixteen buckets at least. -/
theorem slot_add_le_lookaheadEnd (lastscan now : ℕ) :
    slot now + 16 ≤ slot (lookaheadEnd lastscan now) := by
  have hmin : 2 ^ 28 ≤ lookahead (calloutHash lastscan) (calloutHash now) := by
    rw [lookahead]
    split
    · decide
    · split <;> decide
  rw [slot_lookaheadEnd, slot_eq, slot_eq]
  omega

/-- Two slots of one turn of the wheel that have the same bucket are the same. -/
theorem eq_of_mod_eq {F a b m : ℕ} (h : a % m = b % m) (ha : F ≤ a) (ham : a < F + m)
    (hb : F ≤ b) (hbm : b < F + m) : a = b := by
  rcases Nat.le_total a b with hab | hab
  · have hsub : (b - a) % m = 0 := Nat.sub_mod_eq_zero_of_mod_eq h.symm
    rw [Nat.mod_eq_of_lt (by omega)] at hsub
    omega
  · have hsub : (a - b) % m = 0 := Nat.sub_mod_eq_zero_of_mod_eq h
    rw [Nat.mod_eq_of_lt (by omega)] at hsub
    omega

section index

variable {Lock : Type*} (cfg : Setup Lock)

theorem Setup.two_pow_order_le : 2 ^ cfg.order ≤ 2 ^ 30 :=
  Nat.pow_le_pow_right (by decide) (Nat.le_of_lt_succ cfg.order_lt)

theorem Setup.toNat_callwheelsize : cfg.callwheelsize.toNat = 2 ^ cfg.order := by
  have hle := cfg.two_pow_order_le
  rw [Setup.callwheelsize, BitVec.toNat_shiftLeft, Nat.shiftLeft_eq, BitVec.toNat_ofNat,
    Nat.one_mod, Nat.one_mul]
  exact Nat.mod_eq_of_lt (by omega)

/-- The mask keeps the remainder. -/
theorem Setup.index_ofNat (n : ℕ) : cfg.index (BitVec.ofNat 32 n) = n % 2 ^ cfg.order := by
  have hle := cfg.two_pow_order_le
  have hpos : 0 < 2 ^ cfg.order := Nat.two_pow_pos _
  have hmask : cfg.callwheelmask.toNat = 2 ^ cfg.order - 1 := by
    rw [Setup.callwheelmask, BitVec.toNat_sub_of_le, cfg.toNat_callwheelsize]
    · rfl
    · rw [BitVec.le_def, cfg.toNat_callwheelsize]
      exact hpos
  have hdvd : 2 ^ cfg.order ∣ 2 ^ 32 :=
    Nat.pow_dvd_pow 2 (Nat.le_of_lt (Nat.lt_trans cfg.order_lt (by decide)))
  rw [Setup.index, BitVec.toNat_and, hmask, Nat.and_two_pow_sub_one_eq_mod, BitVec.toNat_ofNat,
    Nat.mod_mod_of_dvd _ hdvd]

theorem Setup.calloutGetBucket_eq (t : ℕ) :
    cfg.calloutGetBucket t = slot t % 2 ^ cfg.order := cfg.index_ofNat _

/-- The difference of two bucket numbers. -/
theorem ofNat_sub_ofNat {a b : ℕ} (h : b ≤ a) :
    BitVec.ofNat 32 a - BitVec.ofNat 32 b = BitVec.ofNat 32 (a - b) := by
  bv_omega

/-- The signed difference of two bucket numbers, as long as they are not too far apart. -/
theorem toInt_ofNat_sub_ofNat {a b : ℕ} (hab : a < b + 2 ^ 31) (hba : b < a + 2 ^ 31) :
    (BitVec.ofNat 32 a - BitVec.ofNat 32 b).toInt = (a : ℤ) - b := by
  rw [BitVec.toInt_sub, BitVec.toInt_ofNat', BitVec.toInt_ofNat', ← Int.sub_bmod]
  exact Int.bmod_eq_of_le (by omega) (by omega)

/-- The wheel has not turned around since the last scan. -/
def Setup.Punctual (lastscan now : ℕ) : Prop :=
  slot (lookaheadEnd lastscan now) ≤ slot lastscan + 2 ^ cfg.order

instance : DecidableRel cfg.Punctual := fun lastscan now =>
  inferInstanceAs (Decidable (slot (lookaheadEnd lastscan now) ≤ slot lastscan + 2 ^ cfg.order))

/-- A punctual scan does not have to care for a turn of the wheel. -/
theorem Setup.beginScan_of_punctual {Cid : Type*} {lastscan now : ℕ} (hle : lastscan ≤ now)
    (h : cfg.Punctual lastscan now) (callwheel : ℕ → List Cid) :
    (cfg.beginScan lastscan now callwheel).lastb =
        BitVec.ofNat 32 (slot (lookaheadEnd lastscan now) - 1) ∧
      (cfg.beginScan lastscan now callwheel).nowb = calloutHash now := by
  have hahead := slot_add_le_lookaheadEnd lastscan now
  have hslot : slot lastscan ≤ slot now := Nat.div_le_div_right hle
  have horder := cfg.two_pow_order_le
  have h : slot (lookaheadEnd lastscan now) ≤ slot lastscan + 2 ^ cfg.order := h
  have hone : calloutHash (lookaheadEnd lastscan now) - 1 =
      BitVec.ofNat 32 (slot (lookaheadEnd lastscan now) - 1) := by
    exact ofNat_sub_ofNat (b := 1) (by omega)
  have hwrap : ¬ cfg.callwheelsize ≤
      BitVec.ofNat 32 (slot (lookaheadEnd lastscan now) - 1) - calloutHash lastscan := by
    rw [BitVec.le_def, cfg.toNat_callwheelsize, calloutHash, ofNat_sub_ofNat (by omega),
      BitVec.toNat_ofNat]
    omega
  simp only [Setup.beginScan, hone, hwrap, if_false, false_and, and_self]

end index

namespace View

variable {Cid Lock : Type*} [DecidableEq Cid] {cfg : Setup Lock} {v v' : View Cid}
variable {s : Scan Cid} {F f : ℕ} {c : Cid} {b : ℕ}

/-! ### Between two scans -/

/-- No callout on the wheel lies before the last scan, and the next scan is due before the last
moment at which some callout may be called. -/
structure Deadline (v : View Cid) : Prop where
  lastscan_le : ∀ c b, c ∈ v.callwheel b → v.lastscan ≤ (v.entry c).time
  firstevent_le : ∀ c b, c ∈ v.callwheel b →
    v.firstevent ≤ (v.entry c).time + (v.entry c).precision
  nextcall_le : v.busy = false → v.nextcall ≤ max v.started v.firstevent

omit [DecidableEq Cid] in
/-- Taking callouts off the wheel does no harm. -/
theorem Deadline.of_subset (h : Deadline v) (hlast : v'.lastscan = v.lastscan)
    (hfirst : v'.firstevent = v.firstevent) (hnext : v'.nextcall = v.nextcall)
    (hbusy : v'.busy = v.busy) (hstart : v'.started = v.started)
    (hmem : ∀ c b, c ∈ v'.callwheel b → c ∈ v.callwheel b ∧
      (v'.entry c).time = (v.entry c).time ∧ (v'.entry c).precision = (v.entry c).precision) :
    Deadline v' where
  lastscan_le := by
    intro c b hc
    obtain ⟨hc, htime, -⟩ := hmem c b hc
    rw [hlast, htime]
    exact h.lastscan_le c b hc
  firstevent_le := by
    intro c b hc
    obtain ⟨hc, htime, hprec⟩ := hmem c b hc
    rw [hfirst, htime, hprec]
    exact h.firstevent_le c b hc
  nextcall_le := by
    rw [hbusy, hnext, hstart, hfirst]
    exact h.nextcall_le

/-- What is on the wheel after a callout is unlinked was there before, with the same time. -/
theorem mem_of_mem_erase {e : Entry} (h : Lists cfg v.entry v.callwheel v.expireq)
    (hc : c ∈ v.callwheel b) {x : Cid} {b' : ℕ}
    (hx : x ∈ Function.update v.callwheel b ((v.callwheel b).erase c) b') :
    x ≠ c ∧ x ∈ v.callwheel b' ∧ Function.update v.entry c e x = v.entry x := by
  have hmem : x ∈ v.callwheel b' ∧ x ≠ c := by
    by_cases hb : b' = b
    · rw [hb, Function.update_self] at hx
      rw [hb]
      obtain ⟨hne, hx⟩ := (h.nodup_callwheel b).mem_erase_iff.mp hx
      exact ⟨hx, hne⟩
    · rw [Function.update_of_ne hb] at hx
      exact ⟨hx, fun heq => hb (h.bucket_unique (heq ▸ hx) hc)⟩
  exact ⟨hmem.2, hmem.1, Function.update_of_ne hmem.2 _ _⟩

/-- What is on the wheel after a callout is armed is that callout, or was there before. -/
theorem mem_of_mem_arm {time precision : ℕ} (h : Lists cfg v.entry v.callwheel v.expireq)
    (hpend : (v.entry c).pending = false) {x : Cid} {b' : ℕ}
    (hx : x ∈ (v.arm cfg c time precision).callwheel b') :
    x = c ∧ b' = cfg.calloutGetBucket time ∨
      x ≠ c ∧ x ∈ v.callwheel b' ∧ (v.arm cfg c time precision).entry x = v.entry x := by
  have hx : x ∈ Function.update v.callwheel (cfg.calloutGetBucket time)
      (c :: v.callwheel (cfg.calloutGetBucket time)) b' := hx
  by_cases hxc : x = c
  · refine .inl ⟨hxc, ?_⟩
    by_contra hb
    rw [Function.update_of_ne hb, hxc] at hx
    exact (h.not_mem hpend).1 b' hx
  · refine .inr ⟨hxc, ?_, Function.update_of_ne hxc _ _⟩
    by_cases hb : b' = cfg.calloutGetBucket time
    · rw [hb, Function.update_self] at hx
      rw [hb]
      exact (List.mem_cons.mp hx).resolve_left hxc
    · rwa [Function.update_of_ne hb] at hx

theorem Deadline.arm (h : Deadline v) (hl : Linked cfg v)
    (hpend : (v.entry c).pending = false) {time precision : ℕ} (htime : v.lastscan ≤ time) :
    Deadline (v.arm cfg c time precision) where
  lastscan_le := by
    intro x b hx
    rcases mem_of_mem_arm hl.lists hpend hx with ⟨rfl, -⟩ | ⟨-, hx, hentry⟩
    · rw [show (v.arm cfg x time precision).entry x = _ from Function.update_self _ _ _]
      exact htime
    · rw [hentry]
      exact h.lastscan_le x b hx
  firstevent_le := by
    intro x b hx
    rcases mem_of_mem_arm hl.lists hpend hx with ⟨rfl, -⟩ | ⟨-, hx, hentry⟩
    · rw [show (v.arm cfg x time precision).entry x = _ from Function.update_self _ _ _]
      exact Nat.min_le_left _ _
    · rw [hentry]
      exact Nat.le_trans (Nat.min_le_right _ _) (h.firstevent_le x b hx)
  nextcall_le := by
    intro hbusy
    have hbusy : v.busy = false := hbusy
    have hnext := h.nextcall_le hbusy
    simp only [View.arm, hbusy, and_true]
    split <;> omega

/-! ### During a scan -/

/-- The scan has seen the callout: its time has not come, and the next scan will be in time. -/
def Seen (v : View Cid) (s : Scan Cid) (c : Cid) : Prop :=
  s.now < (v.entry c).time ∧ s.last ≤ (v.entry c).time + (v.entry c).precision

/-- The callout is ahead of the cursor, which is in the bucket for the slot `f`. -/
def Ahead (cfg : Setup Lock) (v : View Cid) (s : Scan Cid) (f : ℕ) (c : Cid) : Prop :=
  f < slot (v.entry c).time ∨
    slot (v.entry c).time = f ∧ c ∈ Queue.rest (v.callwheel (f % 2 ^ cfg.order)) (v.cursor s)

/-- The scan `s`, which started at the slot `F` and has come to the slot `f`, misses nothing. -/
structure Cover (cfg : Setup Lock) (v : View Cid) (s : Scan Cid) (F f : ℕ) : Prop where
  firstb : s.firstb = BitVec.ofNat 32 f
  nowb : s.nowb = BitVec.ofNat 32 (slot s.now)
  lastscan : v.lastscan = s.now
  start_le : F ≤ f
  start_le_now : F ≤ slot s.now
  now_lt : slot s.now < slot s.max
  max_eq : slot s.max * 16777216 = s.max
  lt_max : f < slot s.max
  turn : slot s.max ≤ F + 2 ^ cfg.order
  last_le : s.last ≤ s.max
  /-- once the look-ahead is cut, whatever it does not reach is after `last` -/
  lastb : s.lastb = BitVec.ofNat 32 (slot s.max - 1) ∨
    s.lastb = BitVec.ofNat 32 (slot s.now) ∧ slot s.last ≤ max f (slot s.now)
  /-- handlers are called from the buckets up to now only -/
  called : v.calling = true → f ≤ slot s.now
  since : ∀ c b, c ∈ v.callwheel b → F ≤ slot (v.entry c).time
  ahead : ∀ c b, c ∈ v.callwheel b → Seen v s c ∨ Ahead cfg v s f c

namespace Cover

theorem index_firstb (h : Cover cfg v s F f) : cfg.index s.firstb = f % 2 ^ cfg.order := by
  rw [h.firstb, cfg.index_ofNat]

/-- A callout in the bucket at hand belongs to the slot at hand, unless it lies beyond the
look-ahead. -/
theorem slot_eq_of_mem (h : Cover cfg v s F f) (hl : Linked cfg v)
    (hc : c ∈ v.callwheel (f % 2 ^ cfg.order)) (hlt : (v.entry c).time < s.max) :
    slot (v.entry c).time = f := by
  have hmod : slot (v.entry c).time % 2 ^ cfg.order = f % 2 ^ cfg.order := by
    rw [← cfg.calloutGetBucket_eq]
    exact ((hl.lists.mem_callwheel c _).mp hc).2.2
  have hslot : slot (v.entry c).time < slot s.max := by
    have hmax := h.max_eq
    simp only [slot_eq] at hmax ⊢
    omega
  have hturn := h.turn
  have hmax := h.lt_max
  exact eq_of_mod_eq hmod (h.since c _ hc) (by omega) h.start_le (by omega)

/-- The cursor, or the list at it, changes, and what was ahead is still ahead or was seen. -/
theorem step (h : Cover cfg v s F f) {s' : Scan Cid} (hfirstb : s'.firstb = s.firstb)
    (hnowb : s'.nowb = s.nowb) (hnow : s'.now = s.now) (hmax : s'.max = s.max)
    (hlast : s'.last ≤ s.last) (hlastb : s'.lastb = s.lastb ∨
      s'.lastb = s.nowb ∧ slot s'.last ≤ max f (slot s.now))
    (hscan : v'.lastscan = v.lastscan) (hcall : v'.calling = true → f ≤ slot s.now)
    (hmem : ∀ x b, x ∈ v'.callwheel b → x ∈ v.callwheel b ∧
      (v'.entry x).time = (v.entry x).time ∧ (v'.entry x).precision = (v.entry x).precision ∧
      (Ahead cfg v s f x → Seen v' s' x ∨ Ahead cfg v' s' f x)) : Cover cfg v' s' F f where
  firstb := hfirstb.trans h.firstb
  nowb := by
    rw [hnowb, hnow]
    exact h.nowb
  lastscan := by
    rw [hscan, hnow]
    exact h.lastscan
  start_le := h.start_le
  start_le_now := hnow ▸ h.start_le_now
  now_lt := by
    rw [hnow, hmax]
    exact h.now_lt
  max_eq := hmax ▸ h.max_eq
  lt_max := hmax ▸ h.lt_max
  turn := hmax ▸ h.turn
  last_le := hmax ▸ Nat.le_trans hlast h.last_le
  lastb := by
    have hslot : slot s'.last ≤ slot s.last := Nat.div_le_div_right hlast
    rw [hnow, hmax]
    rcases hlastb with heq | ⟨heq, hcut⟩
    · rw [heq]
      exact h.lastb.imp_right fun hcut => ⟨hcut.1, Nat.le_trans hslot hcut.2⟩
    · exact .inr ⟨heq.trans h.nowb, hcut⟩
  called := by
    rw [hnow]
    exact hcall
  since := by
    intro x b hx
    obtain ⟨hx, htime, -⟩ := hmem x b hx
    rw [htime]
    exact h.since x b hx
  ahead := by
    intro x b hx
    obtain ⟨hx, htime, hprec, hahead⟩ := hmem x b hx
    rcases h.ahead x b hx with hseen | hah
    · refine .inl ?_
      rw [Seen, htime, hprec, hnow]
      exact ⟨hseen.1, Nat.le_trans hlast hseen.2⟩
    · exact hahead hah

/-- What is ahead stays ahead when another callout is unlinked. -/
theorem mem_rest_of_erase (hl : Lists cfg v.entry v.callwheel v.expireq)
    (hc : c ∈ v.callwheel b) {cur : Option Cid} {i : ℕ} (hcur : ∀ z, cur = some z →
      z ∈ v.callwheel i) {x : Cid} (hne : x ≠ c) (hx : x ∈ Queue.rest (v.callwheel i) cur) :
    x ∈ Queue.rest (Function.update v.callwheel b ((v.callwheel b).erase c) i)
      (Queue.unlink (v.callwheel b) c cur) := by
  by_cases hi : i = b
  · rw [hi, Function.update_self]
    rw [hi] at hx
    exact Queue.mem_rest_erase (hl.nodup_callwheel b) hc hx hne
  · have hout : cur ≠ some c := fun heq => hi (hl.bucket_unique (hcur c heq) hc)
    rw [Function.update_of_ne hi, Queue.unlink, if_neg hout]
    exact hx

/-- A callout is unlinked from the wheel, and the cursor is moved on if it is at it. -/
theorem erase (h : Cover cfg v s F f) (hl : Linked cfg v) (hscan : v.scan = some s)
    (hc : c ∈ v.callwheel b) (tmp : Option Cid) {e : Entry}
    (hwheel : v'.callwheel = Function.update v.callwheel b ((v.callwheel b).erase c))
    (hentry : v'.entry = Function.update v.entry c e)
    (hlastscan : v'.lastscan = v.lastscan) (hcall : v'.calling = true → f ≤ slot s.now)
    (hcursor : v'.cursor { s with tmp := tmp } = Queue.unlink (v.callwheel b) c (v.cursor s)) :
    Cover cfg v' { s with tmp := tmp } F f := by
  refine h.step rfl rfl rfl rfl (Nat.le_refl _) (.inl rfl) hlastscan hcall ?_
  intro x b' hx
  rw [hwheel] at hx
  obtain ⟨hne, hmem, heq⟩ := mem_of_mem_erase (e := e) hl.lists hc hx
  rw [← hentry] at heq
  refine ⟨hmem, by rw [heq], by rw [heq], fun hah => .inr ?_⟩
  rw [Ahead, heq, hwheel, hcursor]
  refine hah.imp_right fun hah => ⟨hah.1, ?_⟩
  exact mem_rest_of_erase hl.lists hc (h.index_firstb ▸ hl.cursor s hscan) hne hah.2

theorem unexpire (h : Cover cfg v s F f) (c : Cid) : Cover cfg (v.unexpire c) s F f := by
  have hentry : ∀ x, ((v.unexpire c).entry x).time = (v.entry x).time ∧
      ((v.unexpire c).entry x).precision = (v.entry x).precision := by
    intro x
    by_cases hx : x = c
    · rw [hx, show (v.unexpire c).entry c = _ from Function.update_self _ _ _]
      exact ⟨rfl, rfl⟩
    · rw [show (v.unexpire c).entry x = _ from Function.update_of_ne hx _ _]
      exact ⟨rfl, rfl⟩
  refine h.step rfl rfl rfl rfl (Nat.le_refl _) (.inl rfl) rfl h.called ?_
  intro x b hx
  refine ⟨hx, (hentry x).1, (hentry x).2, fun hah => .inr ?_⟩
  rw [Ahead, (hentry x).1]
  exact hah

/-- A callout that is armed by a handler is seen later on. -/
theorem arm (h : Cover cfg v s F f) (hl : Linked cfg v) (hscan : v.scan = some s)
    (hcall : v.calling = true) (hpend : (v.entry c).pending = false) {time precision : ℕ}
    (htime : v.lastscan ≤ time) : Cover cfg (v.arm cfg c time precision) s F f := by
  have hbucket : v.bucket = f % 2 ^ cfg.order := by
    rw [← h.index_firstb]
    exact hl.bucket s hscan hcall
  have hself : (v.arm cfg c time precision).entry c = ⟨time, precision, true, false⟩ :=
    Function.update_self _ _ _
  have hslot : slot s.now ≤ slot time := by
    rw [h.lastscan] at htime
    exact Nat.div_le_div_right htime
  have hle : f ≤ slot time := Nat.le_trans (h.called hcall) hslot
  have hcur : (v.arm cfg c time precision).cursor s =
      if v.bucket = cfg.calloutGetBucket time then some c else v.next := by
    simp only [cursor, View.arm, hcall, if_true]
  have hwheel : (v.arm cfg c time precision).callwheel =
      Function.update v.callwheel (cfg.calloutGetBucket time)
        (c :: v.callwheel (cfg.calloutGetBucket time)) := rfl
  refine { h with since := ?_, ahead := ?_ }
  · intro x b hx
    rcases mem_of_mem_arm hl.lists hpend hx with ⟨rfl, -⟩ | ⟨-, hx, hentry⟩
    · rw [hself]
      exact Nat.le_trans h.start_le hle
    · rw [hentry]
      exact h.since x b hx
  · intro x b hx
    rcases mem_of_mem_arm hl.lists hpend hx with ⟨rfl, -⟩ | ⟨hne, hx, hentry⟩
    · refine .inr ?_
      rw [Ahead, hself, hcur]
      rcases Nat.lt_or_eq_of_le hle with hlt | heq
      · exact .inl hlt
      · have hb : v.bucket = cfg.calloutGetBucket time := by
          rw [hbucket, cfg.calloutGetBucket_eq, heq]
        refine .inr ⟨heq.symm, ?_⟩
        rw [if_pos hb, ← hbucket, hb, hwheel, Function.update_self, Queue.rest_cons_self]
        exact List.mem_cons_self
    · rw [Seen, Ahead, hentry, hcur]
      refine (h.ahead x b hx).imp_right (Or.imp_right fun hah => ⟨hah.1, ?_⟩)
      have hrest : x ∈ Queue.rest (v.callwheel (f % 2 ^ cfg.order)) v.next := by
        have := hah.2
        rwa [cursor, if_pos hcall] at this
      by_cases hb : v.bucket = cfg.calloutGetBucket time
      · rw [if_pos hb, ← hbucket, hb, hwheel, Function.update_self, Queue.rest_cons_self]
        rw [← hbucket, hb] at hrest
        exact List.mem_cons_of_mem c ((Queue.rest_suffix _ _).mem hrest)
      · rw [if_neg hb, hwheel, Function.update_of_ne (hbucket ▸ hb)]
        exact hrest

/-- The cursor moves on from a callout that was seen, or lies beyond the look-ahead. -/
theorem advance (h : Cover cfg v s F f) (hl : Linked cfg v) (hscan : v.scan = some s)
    (hcall : v.calling = false) (htmp : s.tmp = some c) {s' : Scan Cid}
    (hfirstb : s'.firstb = s.firstb) (hnowb : s'.nowb = s.nowb) (hnow : s'.now = s.now)
    (hmax : s'.max = s.max) (hlast : s'.last ≤ s.last) (hlastb : s'.lastb = s.lastb ∨
      s'.lastb = s.nowb ∧ slot s'.last ≤ max f (slot s.now))
    (htmp' : s'.tmp = Queue.next (v.callwheel (cfg.index s.firstb)) c)
    (hc : Seen v s' c ∨ f < slot (v.entry c).time) :
    Cover cfg { v with scan := some s' } s' F f := by
  have hmem := hl.tmp_mem hscan hcall htmp
  have hcur : v.cursor s = some c := by
    rw [cursor, hcall]
    exact htmp
  have hcur' : View.cursor { v with scan := some s' } s' =
      Queue.next (v.callwheel (f % 2 ^ cfg.order)) c := by
    rw [← h.index_firstb, ← htmp']
    simp only [cursor, hcall, Bool.false_eq_true, if_false]
  refine h.step hfirstb hnowb hnow hmax hlast hlastb rfl h.called ?_
  intro x b hx
  refine ⟨hx, rfl, rfl, fun hah => ?_⟩
  by_cases hne : x = c
  · rw [hne]
    exact hc.imp_right .inl
  · refine .inr (hah.imp_right fun hah => ⟨hah.1, ?_⟩)
    rw [hcur']
    rw [hcur] at hah
    rw [h.index_firstb] at hmem
    exact Queue.mem_rest_next (hl.lists.nodup_callwheel _) hmem hah.2 hne

/-- The scan looks at a callout whose time has not come. -/
theorem lookAt (h : Cover cfg v s F f) (hl : Linked cfg v) (hscan : v.scan = some s)
    (hcall : v.calling = false) (htmp : s.tmp = some c) (hdue : s.now < (v.entry c).time)
    {s' : Scan Cid} (hs' : s' = { s.lookAt (v.entry c).time (v.entry c).precision with
      tmp := Queue.next (v.callwheel (cfg.index s.firstb)) c }) :
    Cover cfg { v with scan := some s' } s' F f := by
  have hmem : c ∈ v.callwheel (f % 2 ^ cfg.order) := by
    rw [← h.index_firstb]
    exact hl.tmp_mem hscan hcall htmp
  subst hs'
  rw [Scan.lookAt]
  split
  · -- an event of the distant future
    next hfar =>
    have hslot : f < slot (v.entry c).time :=
      Nat.lt_of_lt_of_le h.lt_max (Nat.div_le_div_right hfar)
    exact h.advance hl hscan hcall htmp rfl rfl rfl rfl (Nat.le_refl _) (.inl rfl) rfl
      (.inr hslot)
  · next hnear =>
    have hslot : slot (v.entry c).time = f := h.slot_eq_of_mem hl hmem (Nat.lt_of_not_le hnear)
    split
    · -- an event that cannot be aggregated: the look-ahead is cut
      next hlate =>
      have hcut : slot s.last ≤ max f (slot s.now) := by
        rw [← hslot]
        exact Nat.le_trans (Nat.div_le_div_right (Nat.le_of_lt hlate)) (Nat.le_max_left _ _)
      exact h.advance hl hscan hcall htmp rfl rfl rfl rfl (Nat.le_refl _) (.inr ⟨rfl, hcut⟩) rfl
        (.inl ⟨hdue, Nat.le_trans (Nat.le_of_lt hlate) (Nat.le_add_right _ _)⟩)
    · exact h.advance hl hscan hcall htmp rfl rfl rfl rfl (Nat.min_le_right _ _) (.inl rfl) rfl
        (.inl ⟨hdue, Nat.min_le_left _ _⟩)

omit [DecidableEq Cid] in
/-- A callout on the wheel is in the bucket of its slot. -/
theorem mem_bucket (hl : Lists cfg v.entry v.callwheel v.expireq) (hc : c ∈ v.callwheel b)
    {f : ℕ} (hf : slot (v.entry c).time = f) : c ∈ v.callwheel (f % 2 ^ cfg.order) := by
  have hb := ((hl.mem_callwheel c b).mp hc).2.2
  rw [cfg.calloutGetBucket_eq, hf] at hb
  exact hb ▸ hc

/-- The signed comparison of the loop compares the slots. -/
theorem toInt_firstb (h : Cover cfg v s F f) {L : ℕ} (hL : s.lastb = BitVec.ofNat 32 L)
    (hF : F ≤ L) (hmax : L < slot s.max) :
    (s.firstb + 1 - s.lastb).toInt = (f : ℤ) + 1 - L := by
  have horder := cfg.two_pow_order_le
  have hturn := h.turn
  have hlt := h.lt_max
  have hstart := h.start_le
  have hsucc : s.firstb + 1 = BitVec.ofNat 32 (f + 1) := by
    rw [h.firstb, BitVec.ofNat_add]
    rfl
  rw [hsucc, hL, toInt_ofNat_sub_ofNat (by omega) (by omega)]
  push_cast
  rfl

/-- At the end of a bucket nothing of it is ahead. -/
theorem ahead_of_tmp_none (htmp : s.tmp = none) (hcall : v.calling = false)
    (h : Ahead cfg v s f c) : f < slot (v.entry c).time := by
  refine h.resolve_right fun hah => ?_
  have hrest := hah.2
  rw [cursor, hcall] at hrest
  simp only [Bool.false_eq_true, if_false, htmp, Queue.rest, List.not_mem_nil] at hrest

/-- The scan goes on with the next bucket. -/
theorem nextBucket (h : Cover cfg v s F f) (hl : Linked cfg v) (hcall : v.calling = false)
    (htmp : s.tmp = none) (hmore : (s.firstb + 1 - s.lastb).toInt ≤ 0) :
    Cover cfg { v with scan := some (cfg.nextBucket s v.callwheel) }
      (cfg.nextBucket s v.callwheel) F (f + 1) := by
  have hsucc : s.firstb + 1 = BitVec.ofNat 32 (f + 1) := by
    rw [h.firstb, BitVec.ofNat_add]
    rfl
  have hnow := h.now_lt
  have hstart := h.start_le
  have hlt : f + 1 < slot s.max := by
    rcases h.lastb with hL | ⟨hL, -⟩
    · rw [h.toInt_firstb hL (by have := h.start_le_now; omega) (by omega)] at hmore
      omega
    · rw [h.toInt_firstb hL h.start_le_now h.now_lt] at hmore
      omega
  have hcur : View.cursor { v with scan := some (cfg.nextBucket s v.callwheel) }
      (cfg.nextBucket s v.callwheel) = (v.callwheel ((f + 1) % 2 ^ cfg.order)).head? := by
    simp only [cursor, hcall, Bool.false_eq_true, if_false, Setup.nextBucket, hsucc,
      cfg.index_ofNat]
  exact
    { firstb := hsucc
      nowb := h.nowb
      lastscan := h.lastscan
      start_le := Nat.le_succ_of_le hstart
      start_le_now := h.start_le_now
      now_lt := h.now_lt
      max_eq := h.max_eq
      lt_max := hlt
      turn := h.turn
      last_le := h.last_le
      lastb := h.lastb.imp_right fun hcut => ⟨hcut.1, Nat.le_trans hcut.2 (by
        change max f (slot s.now) ≤ max (f + 1) (slot s.now)
        omega)⟩
      called := fun hcall' => absurd (hcall.symm.trans hcall') Bool.false_ne_true
      since := h.since
      ahead := by
        intro x b hx
        rcases h.ahead x b hx with hseen | hah
        · exact .inl hseen
        · have hgt := ahead_of_tmp_none htmp hcall hah
          rcases Nat.lt_or_eq_of_le (Nat.succ_le_of_lt hgt) with hlt | heq
          · exact .inr (.inl hlt)
          · refine .inr (.inr ⟨heq.symm, ?_⟩)
            rw [hcur, Queue.rest_head?]
            exact mem_bucket hl.lists hx heq.symm }

/-- The scan has come to its end. -/
theorem done (h : Cover cfg v s F f) (hcall : v.calling = false) (htmp : s.tmp = none)
    (hmore : 0 < (s.firstb + 1 - s.lastb).toInt) (hc : c ∈ v.callwheel b) : Seen v s c := by
  refine (h.ahead c b hc).elim id fun hah => ?_
  have hgt := ahead_of_tmp_none htmp hcall hah
  have hnow := h.now_lt
  have hstart := h.start_le_now
  have hlast := h.last_le
  have hmax := h.max_eq
  rw [Seen]
  rcases h.lastb with hL | ⟨hL, hcut⟩
  · rw [h.toInt_firstb hL (by omega) (by omega)] at hmore
    simp only [slot_eq] at *
    omega
  · rw [h.toInt_firstb hL hstart hnow] at hmore
    simp only [slot_eq] at *
    omega

end Cover

/-- A scan starts. -/
theorem Cover.begin (hl : Linked cfg v) (h : Deadline v) {now : ℕ} (hnow : v.lastscan ≤ now)
    (hcall : v.calling = false) (hok : cfg.Punctual v.lastscan now) :
    Cover cfg (v.process cfg now) (cfg.beginScan v.lastscan now v.callwheel) (slot v.lastscan)
      (slot v.lastscan) := by
  obtain ⟨hlastb, hnowb⟩ := cfg.beginScan_of_punctual hnow hok v.callwheel
  have hahead := slot_add_le_lookaheadEnd v.lastscan now
  have hslot : slot v.lastscan ≤ slot now := Nat.div_le_div_right hnow
  have hcur : (v.process cfg now).cursor (cfg.beginScan v.lastscan now v.callwheel) =
      (v.callwheel (slot v.lastscan % 2 ^ cfg.order)).head? := by
    simp only [cursor, View.process, hcall, Bool.false_eq_true, if_false, Setup.beginScan,
      calloutHash, cfg.index_ofNat]
  exact
    { firstb := rfl
      nowb := hnowb
      lastscan := rfl
      start_le := Nat.le_refl _
      start_le_now := hslot
      now_lt := show slot now < slot (lookaheadEnd v.lastscan now) by omega
      max_eq := by
        change slot (lookaheadEnd v.lastscan now) * 16777216 = lookaheadEnd v.lastscan now
        rw [slot_lookaheadEnd]
        rfl
      lt_max := Nat.lt_of_lt_of_le (by omega) hahead
      turn := hok
      last_le := Nat.le_refl _
      lastb := .inl hlastb
      called := fun _ => hslot
      since := fun x b hx => Nat.div_le_div_right (h.lastscan_le x b hx)
      ahead := by
        intro x b hx
        have hle : slot v.lastscan ≤ slot (v.entry x).time :=
          Nat.div_le_div_right (h.lastscan_le x b hx)
        rcases Nat.lt_or_eq_of_le hle with hlt | heq
        · exact .inr (.inl hlt)
        · refine .inr (.inr ⟨heq.symm, ?_⟩)
          rw [hcur]
          change x ∈ Queue.rest (v.callwheel (slot v.lastscan % 2 ^ cfg.order)) _
          rw [Queue.rest_head?]
          exact Cover.mem_bucket hl.lists hx heq.symm }

/-! ### The invariant -/

/-- What holds between two scans and during them. -/
structure Timely (cfg : Setup Lock) (v : View Cid) : Prop where
  lastscan_le : v.lastscan ≤ v.now
  deadline : v.scan = none → Deadline v
  cover : ∀ s, v.scan = some s → ∃ F f, Cover cfg v s F f

/-- Nothing but the event timer changes. -/
theorem Timely.setTimer (h : Timely cfg v) {now nextcall started : ℕ} {busy : Bool}
    (hnow : v.now ≤ now) (hnext : v.scan = none → busy = false →
      nextcall ≤ max started v.firstevent) :
    Timely cfg
      { v with now := now, nextcall := nextcall, started := started, busy := busy } where
  lastscan_le := Nat.le_trans h.lastscan_le hnow
  deadline := fun hscan => { h.deadline hscan with nextcall_le := hnext hscan }
  cover := by
    intro s hscan
    obtain ⟨F, f, hc⟩ := h.cover s hscan
    exact ⟨F, f, { hc with }⟩

/-- A change that leaves the scan as it is, or moves its cursor. -/
theorem Timely.of_cover (h : Timely cfg v) {s' : Scan Cid} (hscan : v.scan = some s)
    (hscan' : v'.scan = some s') (hlast : v'.lastscan = v.lastscan) (hnow : v'.now = v.now)
    (hcover : ∀ F f, Cover cfg v s F f → ∃ f', Cover cfg v' s' F f') : Timely cfg v' where
  lastscan_le := by
    rw [hlast, hnow]
    exact h.lastscan_le
  deadline := fun hnone => absurd (hscan'.symm.trans hnone) (Option.some_ne_none s')
  cover := by
    intro s'' hs''
    obtain rfl : s' = s'' := Option.some.inj (hscan'.symm.trans hs'')
    obtain ⟨F, f, hc⟩ := h.cover s hscan
    obtain ⟨f', hc'⟩ := hcover F f hc
    exact ⟨F, f', hc'⟩

theorem Timely.unwheel (h : Timely cfg v) (hl : Linked cfg v) (hfree : v.Free)
    (hmem : c ∈ v.callwheel b) : Timely cfg (v.unwheel c b) := by
  rcases hscan : v.scan with _ | s
  · refine ⟨h.lastscan_le, fun _ => ?_, fun s hs => absurd (hscan.symm.trans hs) (by simp)⟩
    refine (h.deadline hscan).of_subset rfl rfl rfl rfl rfl fun x b' hx => ?_
    obtain ⟨-, hx, hentry⟩ := mem_of_mem_erase (e := { v.entry c with pending := false })
      hl.lists hmem hx
    exact ⟨hx, congrArg Entry.time hentry, congrArg Entry.precision hentry⟩
  · have hcall : v.calling = true := hfree s hscan
    refine h.of_cover hscan hscan rfl rfl fun F f hc => ⟨f, ?_⟩
    refine hc.erase hl hscan hmem s.tmp rfl rfl rfl hc.called ?_
    simp only [cursor, View.unwheel, hcall, if_true]

theorem Timely.unexpire (h : Timely cfg v) (c : Cid) : Timely cfg (v.unexpire c) := by
  rcases hscan : v.scan with _ | s
  · refine ⟨h.lastscan_le, fun _ => ?_, fun s hs => absurd (hscan.symm.trans hs) (by simp)⟩
    refine (h.deadline hscan).of_subset rfl rfl rfl rfl rfl fun x b hx => ⟨hx, ?_⟩
    by_cases hxc : x = c
    · rw [hxc, show (v.unexpire c).entry c = _ from Function.update_self _ _ _]
      exact ⟨rfl, rfl⟩
    · rw [show (v.unexpire c).entry x = _ from Function.update_of_ne hxc _ _]
      exact ⟨rfl, rfl⟩
  · exact h.of_cover hscan hscan rfl rfl fun F f hc => ⟨f, hc.unexpire c⟩

theorem Timely.arm (h : Timely cfg v) (hl : Linked cfg v) (hfree : v.Free)
    (hpend : (v.entry c).pending = false) {time : ℕ} (precision : ℕ) (htime : v.lastscan ≤ time) :
    Timely cfg (v.arm cfg c time precision) := by
  rcases hscan : v.scan with _ | s
  · exact ⟨h.lastscan_le, fun _ => (h.deadline hscan).arm hl hpend htime,
      fun s hs => absurd (hscan.symm.trans hs) (by simp)⟩
  · have hcall : v.calling = true := hfree s hscan
    exact h.of_cover hscan hscan rfl rfl fun F f hc => ⟨f, hc.arm hl hscan hcall hpend htime⟩

/-- **Every move keeps the wheel in time**, if the scans are punctual. -/
theorem timely_of_move (hl : Linked cfg v) (h : Timely cfg v)
    (hm : Move cfg cfg.Punctual v v') : Timely cfg v' := by
  cases hm with
  | configtimer now period hnow =>
    exact h.setTimer hnow fun _ _ => Nat.le_max_left _ _
  | stoptimer => exact h.setTimer (Nat.le_refl _) fun _ hbusy => absurd hbusy (by decide)
  | tick now hnow => exact h.setTimer hnow fun hscan hbusy => (h.deadline hscan).nextcall_le hbusy
  | process now hnow hscan hok =>
    have hcall : v.calling = false := hl.calling_of_scan_none hscan
    have hle : v.lastscan ≤ now := Nat.le_trans h.lastscan_le hnow
    refine ⟨Nat.le_refl now, fun hnone => absurd hnone (Option.some_ne_none _), ?_⟩
    intro s hs
    obtain rfl := Option.some.inj hs
    exact ⟨_, _, Cover.begin hl (h.deadline hscan) hle hcall hok⟩
  | nextBucket s hscan hcall htmp hmore =>
    exact h.of_cover hscan rfl rfl rfl fun F f hc => ⟨f + 1, hc.nextBucket hl hcall htmp hmore⟩
  | done s hscan hcall htmp hmore =>
    obtain ⟨F, f, hc⟩ := h.cover s hscan
    have hseen : ∀ c b, c ∈ v.callwheel b → Seen v s c := fun c b =>
      hc.done hcall htmp hmore
    refine ⟨h.lastscan_le, fun _ => ?_, fun s' hs' => absurd hs' (by simp [View.done])⟩
    refine ⟨fun c b hmem => ?_, fun c b hmem => (hseen c b hmem).2, fun hbusy => ?_⟩
    · change v.lastscan ≤ _
      rw [hc.lastscan]
      exact Nat.le_of_lt (hseen c b hmem).1
    · have hbusy : v.busy = false := hbusy
      simp only [View.done, hbusy, Bool.false_eq_true, if_false]
      omega
  | takeDirect s c hscan hcall htmp hdue =>
    have hmem := hl.tmp_mem hscan hcall htmp
    refine h.of_cover hscan hscan rfl rfl fun F f hc => ⟨f, ?_⟩
    have hslot : slot (v.entry c).time = f := by
      have hnow := hc.now_lt
      refine hc.slot_eq_of_mem hl (hc.index_firstb ▸ hmem) ?_
      by_contra hge
      exact absurd (Nat.div_le_div_right (c := 16777216) (Nat.le_trans (Nat.le_of_not_lt hge) hdue))
        (Nat.not_le_of_lt hnow)
    refine hc.erase hl hscan hmem s.tmp rfl rfl rfl (fun _ => ?_) ?_
    · rw [← hslot]
      exact Nat.div_le_div_right hdue
    · simp only [cursor, View.takeDirect, hcall, if_true, Bool.false_eq_true, if_false, htmp,
        Queue.unlink_self]
  | expire s c hscan hcall htmp hdue =>
    have hmem := hl.tmp_mem hscan hcall htmp
    refine h.of_cover hscan rfl rfl rfl fun F f hc => ⟨f, ?_⟩
    refine hc.erase hl hscan hmem _ rfl rfl rfl hc.called ?_
    simp only [cursor, View.expire, hcall, Bool.false_eq_true, if_false, htmp, Queue.unlink_self]
  | lookAt s c hscan hcall htmp hdue =>
    exact h.of_cover hscan rfl rfl rfl fun F f hc =>
      ⟨f, hc.lookAt hl hscan hcall htmp hdue rfl⟩
  | resume hcall =>
    obtain ⟨s, hscan⟩ := Option.ne_none_iff_exists'.mp (hl.scanning hcall)
    have hscan' : v.scan.map (fun s => { s with tmp := v.next }) =
        some { s with tmp := v.next } := by
      rw [hscan, Option.map_some]
    refine h.of_cover hscan hscan' rfl rfl fun F f hc => ⟨f, ?_⟩
    · refine hc.step rfl rfl rfl rfl (Nat.le_refl _) (.inl rfl) rfl
        (fun hcall' => absurd hcall' Bool.false_ne_true) fun x b hx => ⟨hx, rfl, rfl, ?_⟩
      intro hah
      rw [Ahead, cursor, if_pos hcall] at hah
      exact .inr hah
  | unexpire c hmem => exact h.unexpire c
  | unwheel c b hfree hmem => exact h.unwheel hl hfree hmem
  | arm c time precision hfree hpend htime => exact h.arm hl hfree hpend precision htime

end View

/-! ### Every run -/

namespace World

variable {Cid Lock Call Tid : Type*} [DecidableEq Cid] [DecidableEq Lock] [DecidableEq Tid]
variable {cfg : Setup Lock} {w w' : World Cid Lock Call Tid}
variable {lock : Cid → Option Lock} {returnUnlocked : Cid → Bool} {call : Call}

open Transition

theorem timely_of_reach
    (h : Reach (step cfg) (Ticks cfg.Punctual) (init lock returnUnlocked call) w) :
    View.Linked cfg w.view ∧ View.Timely cfg w.view := by
  refine view_of_reach h ?_ fun v v' hl ht hm => View.timely_of_move hl ht hm
  exact
    { lastscan_le := Nat.le_refl 0
      deadline := fun _ =>
        ⟨fun c b hc => absurd hc List.not_mem_nil, fun c b hc => absurd hc List.not_mem_nil,
          fun hbusy => absurd hbusy (by simp [init, view])⟩
      cover := fun s hs => absurd hs (by simp [init, view]) }

/-- The step ends the clock interrupt for the time `now`: without a scan, or after one. -/
def EndsTick (w w' : World Cid Lock Call Tid) (a : Action Cid Lock Call Tid) (now : ℕ) : Prop :=
  w'.scan = none ∧ (a = .tick now ∨ ∃ s, w.scan = some s ∧ s.now = now)

/-- **No callout is overdue.** Suppose that the wheel never turns around between two scans. When
a clock interrupt has ended, whatever handlers and threads did meanwhile, every callout that is
left on the wheel may still be called in time: its time plus its precision is later than the
interrupt. This holds from the first tick on that the configuration of the timers asked for. -/
theorem not_overdue {a : Action Cid Lock Call Tid} (now : ℕ) (c : Cid)
    (h : Reach (step cfg) (Ticks cfg.Punctual) (init lock returnUnlocked call) w)
    (hs : w.step cfg a = some w') (hok : Ticks cfg.Punctual w a) (hend : EndsTick w w' a now)
    (hstart : w.started ≤ now) (hpend : (w'.callouts c).pending = true)
    (hproc : (w'.callouts c).processed = false) :
    now < (w'.callouts c).time + (w'.callouts c).precision := by
  obtain ⟨hl, ht⟩ := timely_of_reach h
  obtain ⟨hl', -⟩ := timely_of_reach (h.tail hok hs)
  have hmem : c ∈ w'.callwheel (cfg.calloutGetBucket (w'.callouts c).time) :=
    (hl'.lists.mem_callwheel c _).mpr ⟨hpend, hproc, rfl⟩
  obtain ⟨hscan', hcase⟩ := hend
  have htrans := trans_of_step hs
  rcases hcase with rfl | ⟨s, hscan, rfl⟩
  · -- the tick does not start a scan
    cases htrans with
    | tickIdle now hcan hnext =>
      have hdl := ht.deadline hcan.2.1
      have hnc : w.nextcall ≤ max w.started w.firstevent := hdl.nextcall_le hcan.1
      have hfe : w.firstevent ≤ _ := hdl.firstevent_le c _ hmem
      change now < (w.callouts c).time + (w.callouts c).precision
      change w.firstevent ≤ (w.callouts c).time + (w.callouts c).precision at hfe
      omega
    | tickScan now hcan => exact absurd hscan' (Option.some_ne_none _)
  · obtain ⟨rfl, hidle, htmp, hmore⟩ := done_of_trans htrans hscan hscan'
    obtain ⟨F, f, hc⟩ := ht.cover s hscan
    have hseen : View.Seen w.view s c :=
      hc.done (congrArg Stage.engaged hidle) htmp hmore hmem
    exact Nat.lt_of_lt_of_le hseen.1 (Nat.le_add_right _ _)

/-- A callout for the time 5000 is still on the wheel when the interrupt for 2000 has ended. -/
theorem not_overdue_armed :
    ∃ w : World (Fin 1) Unit Unit Unit,
      2000 < (w.callouts 0).time + (w.callouts 0).precision ∧ w.scan = none ∧
        (w.callouts 0).pending = true := by
  have hrun : Reach (step (calloutCallwheelInit 0 0 ()))
      (Ticks (calloutCallwheelInit 0 0 ()).Punctual)
      (init (fun _ => none) (fun _ => true) () : World (Fin 1) Unit Unit Unit) _ :=
    reach_of_exec ([.configtimer 0 1000, .reset (.thread ()) 0 5000 10 () false, .tick 2000] ++
      List.replicate 16 .scan) (by decide) rfl
  have hover := not_overdue 2000 0 hrun (a := .scan) rfl (by decide) ⟨rfl, .inr ⟨_, rfl, rfl⟩⟩
    (by decide) rfl rfl
  exact ⟨_, hover, rfl, rfl⟩

end World

end VosStack.Timeout
