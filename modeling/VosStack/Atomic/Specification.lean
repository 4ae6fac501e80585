import VosStack.Atomic.Sync

/-!
# The atomic operations meet their specification

`docs/atomic` says what an operation does, run alone: it stores the new value in `*ptr`, wrapping
in the width of the operand, and returns the previous value, or for the boolean form whether it
equalled the comparand. `Call.Meets` is this specification, with the frame condition that no
other byte of memory changes.

The call reaches the host through three tables of functions, and an entry in any of them can be
the wrong one. Six of them are:

* `ck_atomi_sync_fetch_and_add_int` and `ck_atomi_sync_fetch_and_sub_32` call the hook of
  fetch-and-and.
* The `ptr` forms of fetch-and-modify and of the boolean compare-and-swap work on the address
  of their parameter and not on `*ptr` (`fetchPtr_meets_iff`).
* `sync_val_compare_and_swap_char` stores eight bytes and returns the success flag.
* `sync_val_compare_and_swap_int` returns a `char`.

The other entries meet the specification on every memory and all arguments, and `Call.Sound`
says when these six do.
-/

namespace VosStack.Ck

open Memory

/-! ### The entries -/

/-- The operand types of `ck_atomi_sync_*`. -/
inductive Ty
  | char | uint | int | u64 | u32 | u16 | u8 | ptr
  deriving DecidableEq, Repr

/-- The size of the operand. -/
def Ty.bytes : Ty → ℕ
  | .char | .u8 => 1
  | .u16 => 2
  | .uint | .int | .u32 => 4
  | .u64 | .ptr => 8

/-- The fetch-and-modify operations. -/
inductive FetchOp
  | add | sub | or | and | xor
  deriving DecidableEq, Repr

/-- The function `ck_atomi_sync_fetch_and_*` for an operation and a type. -/
def ckFetch (hooks : SoAtomicHooks) : FetchOp → (t : Ty) → Fetch t.bytes
  | .add, .char => ckAtomiSyncFetchAndAddChar hooks
  | .sub, .char => ckAtomiSyncFetchAndSubChar hooks
  | .or, .char => ckAtomiSyncFetchAndOrChar hooks
  | .and, .char => ckAtomiSyncFetchAndAndChar hooks
  | .xor, .char => ckAtomiSyncFetchAndXorChar hooks
  | .add, .uint => ckAtomiSyncFetchAndAddUint hooks
  | .sub, .uint => ckAtomiSyncFetchAndSubUint hooks
  | .or, .uint => ckAtomiSyncFetchAndOrUint hooks
  | .and, .uint => ckAtomiSyncFetchAndAndUint hooks
  | .xor, .uint => ckAtomiSyncFetchAndXorUint hooks
  | .add, .int => ckAtomiSyncFetchAndAddInt hooks
  | .sub, .int => ckAtomiSyncFetchAndSubInt hooks
  | .or, .int => ckAtomiSyncFetchAndOrInt hooks
  | .and, .int => ckAtomiSyncFetchAndAndInt hooks
  | .xor, .int => ckAtomiSyncFetchAndXorInt hooks
  | .add, .u64 => ckAtomiSyncFetchAndAdd64 hooks
  | .sub, .u64 => ckAtomiSyncFetchAndSub64 hooks
  | .or, .u64 => ckAtomiSyncFetchAndOr64 hooks
  | .and, .u64 => ckAtomiSyncFetchAndAnd64 hooks
  | .xor, .u64 => ckAtomiSyncFetchAndXor64 hooks
  | .add, .u32 => ckAtomiSyncFetchAndAdd32 hooks
  | .sub, .u32 => ckAtomiSyncFetchAndSub32 hooks
  | .or, .u32 => ckAtomiSyncFetchAndOr32 hooks
  | .and, .u32 => ckAtomiSyncFetchAndAnd32 hooks
  | .xor, .u32 => ckAtomiSyncFetchAndXor32 hooks
  | .add, .u16 => ckAtomiSyncFetchAndAdd16 hooks
  | .sub, .u16 => ckAtomiSyncFetchAndSub16 hooks
  | .or, .u16 => ckAtomiSyncFetchAndOr16 hooks
  | .and, .u16 => ckAtomiSyncFetchAndAnd16 hooks
  | .xor, .u16 => ckAtomiSyncFetchAndXor16 hooks
  | .add, .u8 => ckAtomiSyncFetchAndAdd8 hooks
  | .sub, .u8 => ckAtomiSyncFetchAndSub8 hooks
  | .or, .u8 => ckAtomiSyncFetchAndOr8 hooks
  | .and, .u8 => ckAtomiSyncFetchAndAnd8 hooks
  | .xor, .u8 => ckAtomiSyncFetchAndXor8 hooks
  | .add, .ptr => ckAtomiSyncFetchAndAddPtr hooks
  | .sub, .ptr => ckAtomiSyncFetchAndSubPtr hooks
  | .or, .ptr => ckAtomiSyncFetchAndOrPtr hooks
  | .and, .ptr => ckAtomiSyncFetchAndAndPtr hooks
  | .xor, .ptr => ckAtomiSyncFetchAndXorPtr hooks

/-- The function `ck_atomi_sync_bool_compare_and_swap_*` for a type. -/
def ckBoolCas (hooks : SoAtomicHooks) : (t : Ty) → Cas t.bytes Bool
  | .char => ckAtomiSyncBoolCompareAndSwapChar hooks
  | .uint => ckAtomiSyncBoolCompareAndSwapUint hooks
  | .int => ckAtomiSyncBoolCompareAndSwapInt hooks
  | .u64 => ckAtomiSyncBoolCompareAndSwap64 hooks
  | .u32 => ckAtomiSyncBoolCompareAndSwap32 hooks
  | .u16 => ckAtomiSyncBoolCompareAndSwap16 hooks
  | .u8 => ckAtomiSyncBoolCompareAndSwap8 hooks
  | .ptr => ckAtomiSyncBoolCompareAndSwapPtr hooks

/-- The function `ck_atomi_sync_val_compare_and_swap_*` for a type. -/
def ckValCas (hooks : SoAtomicHooks) : (t : Ty) → Cas t.bytes (BitVec (8 * t.bytes))
  | .char => ckAtomiSyncValCompareAndSwapChar hooks
  | .uint => ckAtomiSyncValCompareAndSwapUint hooks
  | .int => ckAtomiSyncValCompareAndSwapInt hooks
  | .u64 => ckAtomiSyncValCompareAndSwap64 hooks
  | .u32 => ckAtomiSyncValCompareAndSwap32 hooks
  | .u16 => ckAtomiSyncValCompareAndSwap16 hooks
  | .u8 => ckAtomiSyncValCompareAndSwap8 hooks
  | .ptr => ckAtomiSyncValCompareAndSwapPtr hooks

/-- A call of `ck_atomi_sync_*` with its arguments, the pointer apart. -/
inductive Call
  | fetch (op : FetchOp) (t : Ty) (value : BitVec (8 * t.bytes))
  | boolCas (t : Ty) (compare set : BitVec (8 * t.bytes))
  | valCas (t : Ty) (compare set : BitVec (8 * t.bytes))

/-- The type of `*ptr`. -/
abbrev Call.ty : Call → Ty
  | .fetch _ t _ | .boolCas t _ _ | .valCas t _ _ => t

/-- The return type. -/
abbrev Call.Ret : Call → Type
  | .fetch _ t _ | .valCas t _ _ => BitVec (8 * t.bytes)
  | .boolCas _ _ _ => Bool

/-- The result of a call and the memory after it. -/
def Call.run (hooks : SoAtomicHooks) (frame : Ptr) (m : Mem 64) (ptr : Ptr) :
    (c : Call) → c.Ret × Mem 64
  | .fetch op t value => ckFetch hooks op t frame m ptr value
  | .boolCas t compare set => ckBoolCas hooks t frame m ptr compare set
  | .valCas t compare set => ckValCas hooks t frame m ptr compare set

/-! ### The specification -/

/-- What an operation makes of the previous value and the argument. -/
def FetchOp.eval {w : ℕ} : FetchOp → BitVec w → BitVec w → BitVec w
  | .add => (· + ·)
  | .sub => (· - ·)
  | .or => (· ||| ·)
  | .and => (· &&& ·)
  | .xor => (· ^^^ ·)

/-- The value that `*ptr` gets when it holds `old`. -/
def Call.new : (c : Call) → (old : BitVec (8 * c.ty.bytes)) → BitVec (8 * c.ty.bytes)
  | .fetch op _ value, old => op.eval old value
  | .boolCas _ compare set, old | .valCas _ compare set, old => if old = compare then set else old

/-- The value that the call returns when `*ptr` holds `old`. -/
def Call.ret : (c : Call) → (old : BitVec (8 * c.ty.bytes)) → c.Ret
  | .fetch _ _ _, old | .valCas _ _ _, old => old
  | .boolCas _ compare _, old => decide (old = compare)

/-- `r` is what the specification gives for the call `c` on the memory `m`. -/
structure Call.Meets (c : Call) (m : Mem 64) (ptr : Ptr) (r : c.Ret × Mem 64) : Prop where
  stored : load c.ty.bytes r.2 ptr = c.new (load c.ty.bytes m ptr)
  unchanged : ∀ a, ¬ Within c.ty.bytes ptr a → r.2 a = m a
  returned : r.1 = c.ret (load c.ty.bytes m ptr)

/-- What a wider signed integer holds above the byte `x`. -/
def signByte (x : BitVec 8) : BitVec 8 := if x.msb then 255#8 else 0#8

/-- When a call meets the specification: always, except at the wrong entries. These meet it
where the wrong operation happens to give the right values. -/
def Call.Sound (frame : Ptr) (m : Mem 64) (ptr : Ptr) : Call → Prop
  | .fetch .add .int v | .fetch .sub .u32 v => load 4 m ptr = 0#32 ∧ v = 0#32
  | .fetch _ .ptr _ => load 8 m ptr = frame
  | .fetch _ _ _ => True
  | .boolCas .ptr _ _ => load 8 m ptr = frame
  | .boolCas _ _ _ => True
  | .valCas .char compare set =>
    load 1 m ptr = 1#8 ∧ compare = 1#8 ∧
        (∀ a, Within 8 ptr a → ¬ Within 1 ptr a → m a = signByte set) ∨
      load 1 m ptr = 0#8 ∧ compare ≠ 0#8 ∧ ∀ a, Within 8 ptr a → ¬ Within 1 ptr a → m a = 0#8
  | .valCas .int _ _ => -128 ≤ (load 4 m ptr).toInt ∧ (load 4 m ptr).toInt < 128
  | .valCas _ _ _ => True

/-! ### Bit vectors -/

private theorem and_add_and_not {w : ℕ} (x v : BitVec w) : (x &&& v) + (x &&& ~~~v) = x := by
  rw [BitVec.add_eq_or_of_and_eq_zero]
  · ext i hi
    simp only [BitVec.getElem_or, BitVec.getElem_and, BitVec.getElem_not]
    cases x[i] <;> cases v[i] <;> rfl
  · ext i hi
    simp only [BitVec.getElem_and, BitVec.getElem_not, BitVec.getElem_zero]
    cases x[i] <;> cases v[i] <;> rfl

private theorem and_not_or {w : ℕ} (x v : BitVec w) : x &&& ~~~v ||| v = x ||| v := by
  ext i hi
  simp only [BitVec.getElem_or, BitVec.getElem_and, BitVec.getElem_not]
  cases x[i] <;> cases v[i] <;> rfl

private theorem and_not_and {w : ℕ} (x v : BitVec w) : (x &&& ~~~v) &&& v = 0#w := by
  rw [BitVec.and_assoc, BitVec.not_and_self]
  exact BitVec.and_zero

/-- Conjunction is a sum only at zero: the sum is the conjunction plus the disjunction. -/
theorem and_eq_add_iff {w : ℕ} (x v : BitVec w) : x &&& v = x + v ↔ x = 0#w ∧ v = 0#w := by
  constructor
  · intro h
    have hsum : (x &&& ~~~v) + v = 0#w := by
      apply (BitVec.add_right_inj (x &&& v)).mp
      rw [← BitVec.add_assoc, and_add_and_not, BitVec.add_zero, h]
    rw [BitVec.add_eq_or_of_and_eq_zero _ _ (and_not_and x v), and_not_or] at hsum
    exact BitVec.or_eq_zero_iff.mp hsum
  · rintro ⟨rfl, rfl⟩
    rw [BitVec.add_zero, BitVec.and_self]

theorem and_eq_sub_iff {w : ℕ} (x v : BitVec w) : x &&& v = x - v ↔ x = 0#w ∧ v = 0#w := by
  constructor
  · intro h
    have hv : x &&& ~~~v = v := by
      apply (BitVec.add_right_inj (x &&& v)).mp
      rw [and_add_and_not, h, BitVec.sub_add_cancel]
    have hzero : v = 0#w := by
      have hand := and_not_and x v
      rwa [hv, BitVec.and_self] at hand
    rw [hzero, BitVec.not_zero, BitVec.and_allOnes] at hv
    exact ⟨hv, hzero⟩
  · rintro ⟨rfl, rfl⟩
    rw [BitVec.sub_zero, BitVec.and_self]

/-- Exactly the values of `signed char` survive the conversion to it and back. -/
theorem signExtend_setWidth_eq_iff (x : BitVec 32) :
    (x.setWidth 8).signExtend 32 = x ↔ -128 ≤ x.toInt ∧ x.toInt < 128 := by
  rw [← BitVec.toInt_inj, BitVec.toInt_signExtend_of_le (by omega), BitVec.toInt_setWidth]
  have hx := BitVec.toInt_eq_toNat_bmod x
  rw [Int.bmod_def] at *
  omega

theorem signExtend_inj {x y : BitVec 8} : x.signExtend 64 = y.signExtend 64 ↔ x = y := by
  rw [← BitVec.toInt_inj, BitVec.toInt_signExtend_of_le (by omega),
    BitVec.toInt_signExtend_of_le (by omega), BitVec.toInt_inj]

theorem getLsbD_signByte (x : BitVec 8) {i : ℕ} (hi : i < 8) :
    (signByte x).getLsbD i = x.msb := by
  rw [signByte]
  split
  · next h =>
    rw [h]
    exact BitVec.getLsbD_allOnes.trans (decide_eq_true hi)
  · next h => rw [BitVec.getLsbD_zero, Bool.eq_false_iff.mpr h]

/-- The bytes of a sign-extended byte. -/
theorem extractLsb_signExtend (x : BitVec 8) {k : ℕ} (hk : k < 8) :
    (x.signExtend 64).extractLsb' (8 * k) 8 = if k = 0 then x else signByte x := by
  apply BitVec.eq_of_getLsbD_eq
  intro i hi
  rw [BitVec.getLsbD_extractLsb', BitVec.getLsbD_signExtend, decide_eq_true hi,
    decide_eq_true (show 8 * k + i < 64 by omega), Bool.true_and, Bool.true_and]
  by_cases h0 : k = 0
  · rw [if_pos h0, if_pos (show 8 * k + i < 8 by omega), h0, Nat.mul_zero, Nat.zero_add]
  · rw [if_neg h0, if_neg (show ¬ 8 * k + i < 8 by omega), getLsbD_signByte x hi]

/-! ### The families meet it -/

theorem Ty.bytes_le (t : Ty) : t.bytes ≤ 2 ^ 64 := by
  cases t <;> decide

/-- A call that ends with a store of the new value into `*ptr` has the two properties of the
memory. -/
theorem Call.meets_of_store {c : Call} {m : Mem 64} {ptr : Ptr} {r : c.Ret × Mem 64}
    (hmem : r.2 = store c.ty.bytes m ptr (c.new (load c.ty.bytes m ptr)))
    (hret : r.1 = c.ret (load c.ty.bytes m ptr)) : c.Meets m ptr r where
  stored := by
    rw [hmem]
    exact load_store_self c.ty.bytes_le m ptr _
  unchanged a ha := by
    rw [hmem]
    exact store_apply_of_not_within ha
  returned := hret

theorem compareExchangeStrong_eq {w : ℕ} (value compare set : BitVec w) :
    compareExchangeStrong value compare set
      = (decide (value = compare), if value = compare then set else value) := by
  unfold compareExchangeStrong
  split
  · next h => rw [decide_eq_true h]
  · next h => rw [decide_eq_false h]

theorem ofBool_ne_zero (b : Bool) : (ofBool 32 b != 0) = b := by
  cases b <;> rfl

theorem fetch_meets {op : FetchOp} {t : Ty} (value : BitVec (8 * t.bytes)) (frame : Ptr)
    (m : Mem 64) (ptr : Ptr) :
    (Call.fetch op t value).Meets m ptr (fetch op.eval frame m ptr value) :=
  Call.meets_of_store rfl rfl

theorem boolCompareAndSwap_meets {t : Ty} (compare set : BitVec (8 * t.bytes)) (frame : Ptr)
    (m : Mem 64) (ptr : Ptr) :
    (Call.boolCas t compare set).Meets m ptr
      (returning (· != 0) boolCompareAndSwap frame m ptr compare set) := by
  apply Call.meets_of_store
  · simp only [returning, boolCompareAndSwap, compareExchangeStrong_eq, Call.new]
  · simp only [returning, boolCompareAndSwap, compareExchangeStrong_eq, ofBool_ne_zero, Call.ret]

theorem valCompareAndSwap_meets {t : Ty} (compare set : BitVec (8 * t.bytes)) (frame : Ptr)
    (m : Mem 64) (ptr : Ptr) :
    (Call.valCas t compare set).Meets m ptr (valCompareAndSwap frame m ptr compare set) := by
  apply Call.meets_of_store
  · simp only [valCompareAndSwap, compareExchangeStrong_eq, Call.new]
  · rfl

/-! ### The wrong entries -/

section calls

variable (frame : Ptr) (m : Mem 64) (ptr : Ptr)

/-- A fetch entry that computes `f` in place of its operation. -/
theorem fetch_meets_iff {op : FetchOp} {t : Ty}
    {f : BitVec (8 * t.bytes) → BitVec (8 * t.bytes) → BitVec (8 * t.bytes)}
    (value : BitVec (8 * t.bytes)) :
    (Call.fetch op t value).Meets m ptr (fetch f frame m ptr value)
      ↔ f (load t.bytes m ptr) value = op.eval (load t.bytes m ptr) value := by
  constructor
  · intro h
    exact (load_store_self t.bytes_le m ptr _).symm.trans h.stored
  · intro h
    exact Call.meets_of_store (congrArg (store t.bytes m ptr) h) rfl

/-- The pointer form works on the address of its parameter, so it meets the specification only
where `*ptr` holds that address. -/
theorem fetchPtr_meets_iff {op : FetchOp} (value : BitVec 64) :
    (Call.fetch op .ptr value).Meets m ptr (fetchPtr op.eval frame m ptr value)
      ↔ load 8 m ptr = frame := by
  constructor
  · intro h
    exact h.returned.symm
  · rintro rfl
    exact Call.meets_of_store rfl rfl

theorem syncBoolCompareAndSwapPtr_meets_iff (compare set : BitVec 64) :
    (Call.boolCas .ptr compare set).Meets m ptr
        (returning (· != 0) syncBoolCompareAndSwapPtr frame m ptr compare set)
      ↔ load 8 m ptr = frame := by
  constructor
  · intro h
    have hstored : (if frame = compare then set else frame)
        = if load 8 m ptr = compare then set else load 8 m ptr := by
      have := h.stored
      simp only [returning, syncBoolCompareAndSwapPtr, compareExchangeStrong_eq] at this
      exact (load_store_self (n := 8) (by decide) m ptr _).symm.trans this
    have hreturned : decide (frame = compare) = decide (load 8 m ptr = compare) := by
      have := h.returned
      simp only [returning, syncBoolCompareAndSwapPtr, compareExchangeStrong_eq,
        ofBool_ne_zero] at this
      exact this
    -- the results agree, so both words equal the comparand or neither does
    by_cases hc : frame = compare
    · rw [decide_eq_true hc] at hreturned
      exact (of_decide_eq_true hreturned.symm).trans hc.symm
    · rw [decide_eq_false hc] at hreturned
      rw [if_neg hc, if_neg (of_decide_eq_false hreturned.symm)] at hstored
      exact hstored.symm
  · rintro rfl
    exact boolCompareAndSwap_meets (t := .ptr) compare set (load 8 m ptr) m ptr

theorem syncValCompareAndSwapInt_meets_iff (compare set : BitVec 32) :
    (Call.valCas .int compare set).Meets m ptr
        (returning (·.signExtend 32) syncValCompareAndSwapInt frame m ptr compare set)
      ↔ -128 ≤ (load 4 m ptr).toInt ∧ (load 4 m ptr).toInt < 128 := by
  rw [← signExtend_setWidth_eq_iff]
  constructor
  · intro h
    exact h.returned
  · intro h
    -- the memory is that of the family, only the result differs
    have hmeets := valCompareAndSwap_meets (t := .int) compare set frame m ptr
    exact ⟨hmeets.stored, hmeets.unchanged, h⟩

/-- What the value compare-and-swap of `char` does: the result is the success flag, and the new
value is stored as a word of eight bytes. -/
theorem syncValCompareAndSwapChar_eq (compare set : BitVec 8) :
    syncValCompareAndSwapChar frame m ptr compare set
      = (ofBool 8 (decide (load 1 m ptr = compare)),
        store 8 m ptr ((if load 1 m ptr = compare then set else load 1 m ptr).signExtend 64)) := by
  simp only [syncValCompareAndSwapChar, compareExchangeStrong_eq, signExtend_inj]
  rw [apply_ite (BitVec.signExtend 64)]

theorem store_signExtend_apply {x : BitVec 8} {a : Ptr} (h : Within 8 ptr a) :
    store 8 m ptr (x.signExtend 64) a = if (a - ptr).toNat = 0 then x else signByte x :=
  (store_apply_of_within h).trans (extractLsb_signExtend x h)

/-- The call meets the specification when the flag is the old value and the seven bytes after
`*ptr` are what it writes there. -/
theorem syncValCompareAndSwapChar_meets_iff_bytes {compare set new : BitVec 8}
    (hnew : new = if load 1 m ptr = compare then set else load 1 m ptr) :
    (Call.valCas .char compare set).Meets m ptr
        (syncValCompareAndSwapChar frame m ptr compare set)
      ↔ ofBool 8 (decide (load 1 m ptr = compare)) = load 1 m ptr ∧
        ∀ a, Within 8 ptr a → ¬ Within 1 ptr a → m a = signByte new := by
  rw [syncValCompareAndSwapChar_eq, ← hnew]
  constructor
  · intro h
    refine ⟨h.returned, fun a ha hne => ?_⟩
    have hbyte : store 8 m ptr (new.signExtend 64) a = m a := h.unchanged a hne
    rw [store_signExtend_apply m ptr ha, if_neg (by rw [Within] at hne; omega)] at hbyte
    exact hbyte.symm
  · rintro ⟨hret, hbytes⟩
    refine ⟨?_, fun a hne => ?_, hret⟩
    · refine Eq.trans ?_ hnew
      exact (load_one _ ptr).trans
        ((store_signExtend_apply m ptr (within_self (by decide) ptr)).trans
          (if_pos (by rw [BitVec.sub_self]; rfl)))
    · by_cases ha : Within 8 ptr a
      · change store 8 m ptr (new.signExtend 64) a = m a
        have hne' : ¬ Within 1 ptr a := hne
        rw [store_signExtend_apply m ptr ha, if_neg (by rw [Within] at hne'; omega),
          hbytes a ha hne]
      · exact store_apply_of_not_within ha

theorem syncValCompareAndSwapChar_meets_iff (compare set : BitVec 8) :
    (Call.valCas .char compare set).Meets m ptr
        (syncValCompareAndSwapChar frame m ptr compare set)
      ↔ load 1 m ptr = 1#8 ∧ compare = 1#8 ∧
            (∀ a, Within 8 ptr a → ¬ Within 1 ptr a → m a = signByte set) ∨
          load 1 m ptr = 0#8 ∧ compare ≠ 0#8 ∧
            ∀ a, Within 8 ptr a → ¬ Within 1 ptr a → m a = 0#8 := by
  rw [syncValCompareAndSwapChar_meets_iff_bytes frame m ptr rfl]
  generalize load 1 m ptr = old
  by_cases hc : old = compare
  · subst hc
    -- the call returns the flag 1, which has to be the old value
    rw [decide_eq_true rfl, if_pos rfl]
    constructor
    · rintro ⟨hret, hbytes⟩
      exact .inl ⟨hret.symm, hret.symm, hbytes⟩
    · rintro (⟨hold, -, hbytes⟩ | ⟨hold, hne, -⟩)
      · exact ⟨hold.symm, hbytes⟩
      · exact absurd hold hne
  · rw [decide_eq_false hc, if_neg hc]
    -- the call returns 0, and the old value is written back with its sign
    constructor
    · rintro ⟨hret, hbytes⟩
      obtain rfl : old = 0#8 := hret.symm
      exact .inr ⟨rfl, fun h => hc h.symm, hbytes⟩
    · rintro (⟨hold, hcompare, -⟩ | ⟨hold, -, hbytes⟩)
      · exact absurd (hold.trans hcompare.symm) hc
      · obtain rfl : old = 0#8 := hold
        exact ⟨rfl, hbytes⟩

/-! ### The calls -/

theorem ckFetch_meets_iff (op : FetchOp) (t : Ty) (value : BitVec (8 * t.bytes)) :
    (Call.fetch op t value).Meets m ptr (ckFetch portFreebsdInit op t frame m ptr value)
      ↔ (Call.fetch op t value).Sound frame m ptr := by
  cases t with
  | ptr => cases op <;> exact fetchPtr_meets_iff frame m ptr value
  | int =>
    cases op with
    | add =>
      exact (fetch_meets_iff (t := .int) frame m ptr value).trans (and_eq_add_iff _ _)
    | _ => exact iff_of_true (fetch_meets (t := .int) value frame m ptr) trivial
  | u32 =>
    cases op with
    | sub =>
      exact (fetch_meets_iff (t := .u32) frame m ptr value).trans (and_eq_sub_iff _ _)
    | _ => exact iff_of_true (fetch_meets (t := .u32) value frame m ptr) trivial
  | _ => cases op <;> exact iff_of_true (fetch_meets value frame m ptr) trivial

theorem ckBoolCas_meets_iff (t : Ty) (compare set : BitVec (8 * t.bytes)) :
    (Call.boolCas t compare set).Meets m ptr
        (ckBoolCas portFreebsdInit t frame m ptr compare set)
      ↔ (Call.boolCas t compare set).Sound frame m ptr := by
  cases t with
  | ptr => exact syncBoolCompareAndSwapPtr_meets_iff frame m ptr compare set
  | _ => exact iff_of_true (boolCompareAndSwap_meets compare set frame m ptr) trivial

theorem ckValCas_meets_iff (t : Ty) (compare set : BitVec (8 * t.bytes)) :
    (Call.valCas t compare set).Meets m ptr
        (ckValCas portFreebsdInit t frame m ptr compare set)
      ↔ (Call.valCas t compare set).Sound frame m ptr := by
  cases t with
  | char => exact syncValCompareAndSwapChar_meets_iff frame m ptr compare set
  | int => exact syncValCompareAndSwapInt_meets_iff frame m ptr compare set
  | _ => exact iff_of_true (valCompareAndSwap_meets compare set frame m ptr) trivial

/-- **When the calls meet the specification.** -/
theorem meets_iff (c : Call) :
    c.Meets m ptr (c.run portFreebsdInit frame m ptr) ↔ c.Sound frame m ptr := by
  cases c with
  | fetch op t value => exact ckFetch_meets_iff frame m ptr op t value
  | boolCas t compare set => exact ckBoolCas_meets_iff frame m ptr t compare set
  | valCas t compare set => exact ckValCas_meets_iff frame m ptr t compare set

end calls

/-- A memory of zeros with the byte `b` at address 16. -/
def byteAt (b : BitVec 8) : Mem 64 := fun a => if a = 16#64 then b else 0

/-- Six calls on `*ptr` at address 16, one for each wrong entry:

* `fetch_and_add_int` of 1 to 1 stores 1;
* `fetch_and_sub_32` of 1 from 2 stores 0;
* `fetch_and_add_ptr` of 1 to 0 stores the address of the parameter plus one and returns that
  address, here 4096;
* `bool_compare_and_swap_ptr` of 0 with 0 fails;
* `val_compare_and_swap_char` of 1 by -1 changes the next byte;
* `val_compare_and_swap_int` on 128 returns -128. -/
theorem not_meets :
    ¬ (Call.fetch .add .int 1#32).Meets (byteAt 1) 16#64
        (Call.run portFreebsdInit 4096#64 (byteAt 1) 16#64 (.fetch .add .int 1#32)) ∧
    ¬ (Call.fetch .sub .u32 1#32).Meets (byteAt 2) 16#64
        (Call.run portFreebsdInit 4096#64 (byteAt 2) 16#64 (.fetch .sub .u32 1#32)) ∧
    ¬ (Call.fetch .add .ptr 1#64).Meets (byteAt 0) 16#64
        (Call.run portFreebsdInit 4096#64 (byteAt 0) 16#64 (.fetch .add .ptr 1#64)) ∧
    ¬ (Call.boolCas .ptr 0#64 0#64).Meets (byteAt 0) 16#64
        (Call.run portFreebsdInit 4096#64 (byteAt 0) 16#64 (.boolCas .ptr 0#64 0#64)) ∧
    ¬ (Call.valCas .char 1#8 255#8).Meets (byteAt 1) 16#64
        (Call.run portFreebsdInit 4096#64 (byteAt 1) 16#64 (.valCas .char 1#8 255#8)) ∧
    ¬ (Call.valCas .int 0#32 0#32).Meets (byteAt 128) 16#64
        (Call.run portFreebsdInit 4096#64 (byteAt 128) 16#64 (.valCas .int 0#32 0#32)) := by
  refine ⟨?_, ?_, ?_, ?_, ?_, ?_⟩
  · intro h
    exact absurd h.stored (by decide)
  · intro h
    exact absurd h.stored (by decide)
  · intro h
    exact absurd h.returned (by decide)
  · intro h
    exact absurd h.returned (by decide)
  · intro h
    exact absurd (h.unchanged 17#64 (by decide)) (by decide)
  · intro h
    exact absurd h.returned (by decide)

end VosStack.Ck
