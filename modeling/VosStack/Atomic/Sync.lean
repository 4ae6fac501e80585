import VosStack.Memory.Bytes

/-!
# The atomic operations of ConcurrencyKit

The kernel calls `ck_atomi_sync_*` (`ck_atomic.c`). Each of these passes its arguments on to a
field of the table `global_atomic_hooks`, and `port_freebsd_init` fills the table with the
host's functions of `port_atomic.cpp`. The functions are modelled on the bytes of memory,
since they differ in how many bytes they read and write and in the conversion of their results.

The hooks of type `long` are left out: no `ck_atomi_sync_*` reads them.

A C function that takes the address of its own pointer parameter needs that address, so every
call is given `frame`, the address at which the callee keeps the parameter.
-/

namespace VosStack.Ck

open Memory

abbrev Ptr := BitVec 64

/-- A fetch-and-modify function on an object of `n` bytes: the previous value and the memory
after the call. -/
abbrev Fetch (n : ℕ) :=
  (frame : Ptr) → Mem 64 → (p : Ptr) → (v : BitVec (8 * n)) → BitVec (8 * n) × Mem 64

/-- A compare-and-swap function on an object of `n` bytes that returns an `α`. -/
abbrev Cas (n : ℕ) (α : Type) :=
  (frame : Ptr) → Mem 64 → (ptr : Ptr) → (compare set : BitVec (8 * n)) → α × Mem 64

/-! ### The host's functions -/

/-- `std::atomic::compare_exchange_strong` on a copy that holds `value`: whether it succeeds,
and what the copy holds after it. -/
def compareExchangeStrong {w : ℕ} (value compare set : BitVec w) : Bool × BitVec w :=
  if value = compare then (true, set) else (false, value)

/-- A `bool` as an integer type. -/
def ofBool (w : ℕ) (isok : Bool) : BitVec w := if isok then 1 else 0

/-- `sync_atomic_fetch*` with the operation `f` of `std::atomic`. -/
def fetch {n : ℕ} (f : BitVec (8 * n) → BitVec (8 * n) → BitVec (8 * n)) : Fetch n :=
  fun _ m p v =>
    let value := load n m p
    let nret := value
    let value := f value v
    (nret, store n m p value)

/-- `sync_atomic_fetch*_ptr`: the copy is built from the address of the parameter. -/
def fetchPtr (f : BitVec 64 → BitVec 64 → BitVec 64) : Fetch 8 :=
  fun frame m p v =>
    let value := frame
    let nret := value
    let value := f value v
    (nret, store 8 m p value)

/-- `sync_bool_compare_and_swap_*`, which return an `int`. -/
def boolCompareAndSwap {n : ℕ} : Cas n (BitVec 32) := fun _ m ptr compare set =>
  let (isok, value) := compareExchangeStrong (load n m ptr) compare set
  (ofBool 32 isok, store n m ptr value)

/-- `sync_val_compare_and_swap_*`. -/
def valCompareAndSwap {n : ℕ} : Cas n (BitVec (8 * n)) := fun _ m ptr compare set =>
  let oldvalue := load n m ptr
  let (_, value) := compareExchangeStrong (load n m ptr) compare set
  (oldvalue, store n m ptr value)

def syncAtomicFetchaddChar : Fetch 1 := fetch (· + ·)
def syncAtomicFetchaddInt : Fetch 4 := fetch (· + ·)
def syncAtomicFetchaddUint : Fetch 4 := fetch (· + ·)
def syncAtomicFetchadd8 : Fetch 1 := fetch (· + ·)
def syncAtomicFetchadd16 : Fetch 2 := fetch (· + ·)
def syncAtomicFetchadd32Pfn : Fetch 4 := fetch (· + ·)
def syncAtomicFetchadd64Pfn : Fetch 8 := fetch (· + ·)
def syncAtomicFetchaddPtr : Fetch 8 := fetchPtr (· + ·)
def syncAtomicFetchsubChar : Fetch 1 := fetch (· - ·)
def syncAtomicFetchsubInt : Fetch 4 := fetch (· - ·)
def syncAtomicFetchsubUint : Fetch 4 := fetch (· - ·)
def syncAtomicFetchsub8 : Fetch 1 := fetch (· - ·)
def syncAtomicFetchsub16 : Fetch 2 := fetch (· - ·)
def syncAtomicFetchsub32Pfn : Fetch 4 := fetch (· - ·)
def syncAtomicFetchsub64Pfn : Fetch 8 := fetch (· - ·)
def syncAtomicFetchsubPtr : Fetch 8 := fetchPtr (· - ·)
def syncAtomicFetchandChar : Fetch 1 := fetch (· &&& ·)
def syncAtomicFetchandInt : Fetch 4 := fetch (· &&& ·)
def syncAtomicFetchandUint : Fetch 4 := fetch (· &&& ·)
def syncAtomicFetchand8 : Fetch 1 := fetch (· &&& ·)
def syncAtomicFetchand16 : Fetch 2 := fetch (· &&& ·)
def syncAtomicFetchand32Pfn : Fetch 4 := fetch (· &&& ·)
def syncAtomicFetchand64Pfn : Fetch 8 := fetch (· &&& ·)
def syncAtomicFetchandPtr : Fetch 8 := fetchPtr (· &&& ·)
def syncAtomicFetchorChar : Fetch 1 := fetch (· ||| ·)
def syncAtomicFetchorInt : Fetch 4 := fetch (· ||| ·)
def syncAtomicFetchorUint : Fetch 4 := fetch (· ||| ·)
def syncAtomicFetchor8 : Fetch 1 := fetch (· ||| ·)
def syncAtomicFetchor16 : Fetch 2 := fetch (· ||| ·)
def syncAtomicFetchor32Pfn : Fetch 4 := fetch (· ||| ·)
def syncAtomicFetchor64Pfn : Fetch 8 := fetch (· ||| ·)
def syncAtomicFetchorPtr : Fetch 8 := fetchPtr (· ||| ·)
def syncAtomicFetchxorChar : Fetch 1 := fetch (· ^^^ ·)
def syncAtomicFetchxorInt : Fetch 4 := fetch (· ^^^ ·)
def syncAtomicFetchxorUint : Fetch 4 := fetch (· ^^^ ·)
def syncAtomicFetchxor8 : Fetch 1 := fetch (· ^^^ ·)
def syncAtomicFetchxor16 : Fetch 2 := fetch (· ^^^ ·)
def syncAtomicFetchxor32Pfn : Fetch 4 := fetch (· ^^^ ·)
def syncAtomicFetchxor64Pfn : Fetch 8 := fetch (· ^^^ ·)
def syncAtomicFetchxorPtr : Fetch 8 := fetchPtr (· ^^^ ·)

def syncBoolCompareAndSwapChar : Cas 1 (BitVec 32) := boolCompareAndSwap
def syncBoolCompareAndSwapInt : Cas 4 (BitVec 32) := boolCompareAndSwap
def syncBoolCompareAndSwapUint : Cas 4 (BitVec 32) := boolCompareAndSwap
def syncBoolCompareAndSwap8 : Cas 1 (BitVec 32) := boolCompareAndSwap
def syncBoolCompareAndSwap16 : Cas 2 (BitVec 32) := boolCompareAndSwap
def syncBoolCompareAndSwap32 : Cas 4 (BitVec 32) := boolCompareAndSwap
def syncBoolCompareAndSwap64 : Cas 8 (BitVec 32) := boolCompareAndSwap

/-- The copy is built from the address of the parameter. -/
def syncBoolCompareAndSwapPtr : Cas 8 (BitVec 32) := fun frame m ptr compare set =>
  let (isok, value) := compareExchangeStrong frame compare set
  (ofBool 32 isok, store 8 m ptr value)

def syncValCompareAndSwapUint : Cas 4 (BitVec (8 * 4)) := valCompareAndSwap
def syncValCompareAndSwap8 : Cas 1 (BitVec (8 * 1)) := valCompareAndSwap
def syncValCompareAndSwap16 : Cas 2 (BitVec (8 * 2)) := valCompareAndSwap
def syncValCompareAndSwap32 : Cas 4 (BitVec (8 * 4)) := valCompareAndSwap
def syncValCompareAndSwap64 : Cas 8 (BitVec (8 * 8)) := valCompareAndSwap

/-- The copy has 64 bits, extended from the signed `char`, and all of them are stored. The result
is the success flag. -/
def syncValCompareAndSwapChar : Cas 1 (BitVec 8) := fun _ m ptr compare set =>
  let (isok, value) := compareExchangeStrong ((load 1 m ptr).signExtend 64)
    (compare.signExtend 64) (set.signExtend 64)
  (ofBool 8 isok, store 8 m ptr value)

/-- The return type is `char`, so the result is the lowest byte of the old value. -/
def syncValCompareAndSwapInt : Cas 4 (BitVec 8) := fun _ m ptr compare set =>
  let oldvalue := load 4 m ptr
  let (_, value) := compareExchangeStrong (load 4 m ptr) compare set
  (oldvalue.setWidth 8, store 4 m ptr value)

/-- The 64-bit function on the same arguments. -/
def syncValCompareAndSwapPtr : Cas 8 (BitVec 64) := syncValCompareAndSwap64

/-! ### The hook table -/

/-- `so_atomic_hooks`. -/
structure SoAtomicHooks where
  atomicFetchaddChar : Fetch 1
  atomicFetchaddInt : Fetch 4
  atomicFetchaddUint : Fetch 4
  atomicFetchadd8 : Fetch 1
  atomicFetchadd16 : Fetch 2
  atomicFetchadd32Pfn : Fetch 4
  atomicFetchadd64Pfn : Fetch 8
  atomicFetchaddPtr : Fetch 8
  atomicFetchsubChar : Fetch 1
  atomicFetchsubInt : Fetch 4
  atomicFetchsubUint : Fetch 4
  atomicFetchsub8 : Fetch 1
  atomicFetchsub16 : Fetch 2
  atomicFetchsub32 : Fetch 4
  atomicFetchsub64 : Fetch 8
  atomicFetchsubPtr : Fetch 8
  atomicFetchorChar : Fetch 1
  atomicFetchorInt : Fetch 4
  atomicFetchorUint : Fetch 4
  atomicFetchor8 : Fetch 1
  atomicFetchor16 : Fetch 2
  atomicFetchor32 : Fetch 4
  atomicFetchor64 : Fetch 8
  atomicFetchorPtr : Fetch 8
  atomicFetchandChar : Fetch 1
  atomicFetchandInt : Fetch 4
  atomicFetchandUint : Fetch 4
  atomicFetchand8 : Fetch 1
  atomicFetchand16 : Fetch 2
  atomicFetchand32 : Fetch 4
  atomicFetchand64 : Fetch 8
  atomicFetchandPtr : Fetch 8
  atomicFetchxorChar : Fetch 1
  atomicFetchxorInt : Fetch 4
  atomicFetchxorUint : Fetch 4
  atomicFetchxor8 : Fetch 1
  atomicFetchxor16 : Fetch 2
  atomicFetchxor32 : Fetch 4
  atomicFetchxor64 : Fetch 8
  atomicFetchxorPtr : Fetch 8
  syncBoolCompareAndSwapChar : Cas 1 (BitVec 32)
  syncValCompareAndSwapChar : Cas 1 (BitVec (8 * 1))
  syncBoolCompareAndSwapInt : Cas 4 (BitVec 32)
  syncValCompareAndSwapInt : Cas 4 (BitVec 8)
  syncBoolCompareAndSwapUint : Cas 4 (BitVec 32)
  syncValCompareAndSwapUint : Cas 4 (BitVec (8 * 4))
  syncBoolCompareAndSwap8 : Cas 1 (BitVec 32)
  syncValCompareAndSwap8 : Cas 1 (BitVec (8 * 1))
  syncBoolCompareAndSwap16 : Cas 2 (BitVec 32)
  syncValCompareAndSwap16 : Cas 2 (BitVec (8 * 2))
  syncBoolCompareAndSwap32 : Cas 4 (BitVec 32)
  syncValCompareAndSwap32 : Cas 4 (BitVec (8 * 4))
  syncBoolCompareAndSwap64 : Cas 8 (BitVec 32)
  syncValCompareAndSwap64 : Cas 8 (BitVec (8 * 8))
  syncBoolCompareAndSwapPtr : Cas 8 (BitVec 32)
  syncValCompareAndSwapPtr : Cas 8 (BitVec (8 * 8))

/-- The table that `port_freebsd_init` passes to `InitAtomicHooks`, which copies each of these
fields into `global_atomic_hooks`. -/
def portFreebsdInit : SoAtomicHooks where
  atomicFetchaddChar := syncAtomicFetchaddChar
  atomicFetchaddInt := syncAtomicFetchaddInt
  atomicFetchaddUint := syncAtomicFetchaddUint
  atomicFetchadd8 := syncAtomicFetchadd8
  atomicFetchadd16 := syncAtomicFetchadd16
  atomicFetchadd32Pfn := syncAtomicFetchadd32Pfn
  atomicFetchadd64Pfn := syncAtomicFetchadd64Pfn
  atomicFetchaddPtr := syncAtomicFetchaddPtr
  atomicFetchsubChar := syncAtomicFetchsubChar
  atomicFetchsubInt := syncAtomicFetchsubInt
  atomicFetchsubUint := syncAtomicFetchsubUint
  atomicFetchsub8 := syncAtomicFetchsub8
  atomicFetchsub16 := syncAtomicFetchsub16
  atomicFetchsub32 := syncAtomicFetchsub32Pfn
  atomicFetchsub64 := syncAtomicFetchsub64Pfn
  atomicFetchsubPtr := syncAtomicFetchsubPtr
  atomicFetchorChar := syncAtomicFetchorChar
  atomicFetchorInt := syncAtomicFetchorInt
  atomicFetchorUint := syncAtomicFetchorUint
  atomicFetchor8 := syncAtomicFetchor8
  atomicFetchor16 := syncAtomicFetchor16
  atomicFetchor32 := syncAtomicFetchor32Pfn
  atomicFetchor64 := syncAtomicFetchor64Pfn
  atomicFetchorPtr := syncAtomicFetchorPtr
  atomicFetchandChar := syncAtomicFetchandChar
  atomicFetchandInt := syncAtomicFetchandInt
  atomicFetchandUint := syncAtomicFetchandUint
  atomicFetchand8 := syncAtomicFetchand8
  atomicFetchand16 := syncAtomicFetchand16
  atomicFetchand32 := syncAtomicFetchand32Pfn
  atomicFetchand64 := syncAtomicFetchand64Pfn
  atomicFetchandPtr := syncAtomicFetchandPtr
  atomicFetchxorChar := syncAtomicFetchxorChar
  atomicFetchxorInt := syncAtomicFetchxorInt
  atomicFetchxorUint := syncAtomicFetchxorUint
  atomicFetchxor8 := syncAtomicFetchxor8
  atomicFetchxor16 := syncAtomicFetchxor16
  atomicFetchxor32 := syncAtomicFetchxor32Pfn
  atomicFetchxor64 := syncAtomicFetchxor64Pfn
  atomicFetchxorPtr := syncAtomicFetchxorPtr
  syncBoolCompareAndSwapChar := Ck.syncBoolCompareAndSwapChar
  syncValCompareAndSwapChar := Ck.syncValCompareAndSwapChar
  syncBoolCompareAndSwapInt := Ck.syncBoolCompareAndSwapInt
  syncValCompareAndSwapInt := Ck.syncValCompareAndSwapInt
  syncBoolCompareAndSwapUint := Ck.syncBoolCompareAndSwapUint
  syncValCompareAndSwapUint := Ck.syncValCompareAndSwapUint
  syncBoolCompareAndSwap8 := Ck.syncBoolCompareAndSwap8
  syncValCompareAndSwap8 := Ck.syncValCompareAndSwap8
  syncBoolCompareAndSwap16 := Ck.syncBoolCompareAndSwap16
  syncValCompareAndSwap16 := Ck.syncValCompareAndSwap16
  syncBoolCompareAndSwap32 := Ck.syncBoolCompareAndSwap32
  syncValCompareAndSwap32 := Ck.syncValCompareAndSwap32
  syncBoolCompareAndSwap64 := Ck.syncBoolCompareAndSwap64
  syncValCompareAndSwap64 := Ck.syncValCompareAndSwap64
  syncBoolCompareAndSwapPtr := Ck.syncBoolCompareAndSwapPtr
  syncValCompareAndSwapPtr := Ck.syncValCompareAndSwapPtr

/-! ### The functions of `ck_atomic.c` -/

/-- The conversion of a returned value to the caller's return type. -/
def returning {n : ℕ} {α β : Type} (conv : α → β) (f : Cas n α) : Cas n β :=
  fun frame m ptr compare set =>
    let (ret, m') := f frame m ptr compare set
    (conv ret, m')

section wrappers

variable (hooks : SoAtomicHooks)

def ckAtomiSyncFetchAndAddChar : Fetch 1 := hooks.atomicFetchaddChar
def ckAtomiSyncFetchAndSubChar : Fetch 1 := hooks.atomicFetchsubChar
def ckAtomiSyncFetchAndOrChar : Fetch 1 := hooks.atomicFetchorChar
def ckAtomiSyncFetchAndAndChar : Fetch 1 := hooks.atomicFetchandChar
def ckAtomiSyncFetchAndXorChar : Fetch 1 := hooks.atomicFetchxorChar
def ckAtomiSyncBoolCompareAndSwapChar : Cas 1 Bool :=
  returning (· != 0) hooks.syncBoolCompareAndSwapChar
def ckAtomiSyncValCompareAndSwapChar : Cas 1 (BitVec (8 * 1)) :=
  hooks.syncValCompareAndSwapChar
def ckAtomiSyncFetchAndAddUint : Fetch 4 := hooks.atomicFetchaddUint
def ckAtomiSyncFetchAndSubUint : Fetch 4 := hooks.atomicFetchsubUint
def ckAtomiSyncFetchAndOrUint : Fetch 4 := hooks.atomicFetchorUint
def ckAtomiSyncFetchAndAndUint : Fetch 4 := hooks.atomicFetchandUint
def ckAtomiSyncFetchAndXorUint : Fetch 4 := hooks.atomicFetchxorUint
def ckAtomiSyncBoolCompareAndSwapUint : Cas 4 Bool :=
  returning (· != 0) hooks.syncBoolCompareAndSwapUint
def ckAtomiSyncValCompareAndSwapUint : Cas 4 (BitVec (8 * 4)) :=
  hooks.syncValCompareAndSwapUint
def ckAtomiSyncFetchAndAddInt : Fetch 4 := hooks.atomicFetchandInt
def ckAtomiSyncFetchAndSubInt : Fetch 4 := hooks.atomicFetchsubInt
def ckAtomiSyncFetchAndOrInt : Fetch 4 := hooks.atomicFetchorInt
def ckAtomiSyncFetchAndAndInt : Fetch 4 := hooks.atomicFetchandInt
def ckAtomiSyncFetchAndXorInt : Fetch 4 := hooks.atomicFetchxorInt
def ckAtomiSyncBoolCompareAndSwapInt : Cas 4 Bool :=
  returning (· != 0) hooks.syncBoolCompareAndSwapInt
def ckAtomiSyncValCompareAndSwapInt : Cas 4 (BitVec 32) :=
  returning (·.signExtend 32) hooks.syncValCompareAndSwapInt
def ckAtomiSyncFetchAndAdd64 : Fetch 8 := hooks.atomicFetchadd64Pfn
def ckAtomiSyncFetchAndSub64 : Fetch 8 := hooks.atomicFetchsub64
def ckAtomiSyncFetchAndOr64 : Fetch 8 := hooks.atomicFetchor64
def ckAtomiSyncFetchAndAnd64 : Fetch 8 := hooks.atomicFetchand64
def ckAtomiSyncFetchAndXor64 : Fetch 8 := hooks.atomicFetchxor64
def ckAtomiSyncBoolCompareAndSwap64 : Cas 8 Bool :=
  returning (· != 0) hooks.syncBoolCompareAndSwap64
def ckAtomiSyncValCompareAndSwap64 : Cas 8 (BitVec (8 * 8)) :=
  hooks.syncValCompareAndSwap64
def ckAtomiSyncFetchAndAdd32 : Fetch 4 := hooks.atomicFetchadd32Pfn
def ckAtomiSyncFetchAndSub32 : Fetch 4 := hooks.atomicFetchand32
def ckAtomiSyncFetchAndOr32 : Fetch 4 := hooks.atomicFetchor32
def ckAtomiSyncFetchAndAnd32 : Fetch 4 := hooks.atomicFetchand32
def ckAtomiSyncFetchAndXor32 : Fetch 4 := hooks.atomicFetchxor32
def ckAtomiSyncBoolCompareAndSwap32 : Cas 4 Bool :=
  returning (· != 0) hooks.syncBoolCompareAndSwap32
def ckAtomiSyncValCompareAndSwap32 : Cas 4 (BitVec (8 * 4)) :=
  hooks.syncValCompareAndSwap32
def ckAtomiSyncFetchAndAdd16 : Fetch 2 := hooks.atomicFetchadd16
def ckAtomiSyncFetchAndSub16 : Fetch 2 := hooks.atomicFetchsub16
def ckAtomiSyncFetchAndOr16 : Fetch 2 := hooks.atomicFetchor16
def ckAtomiSyncFetchAndAnd16 : Fetch 2 := hooks.atomicFetchand16
def ckAtomiSyncFetchAndXor16 : Fetch 2 := hooks.atomicFetchxor16
def ckAtomiSyncBoolCompareAndSwap16 : Cas 2 Bool :=
  returning (· != 0) hooks.syncBoolCompareAndSwap16
def ckAtomiSyncValCompareAndSwap16 : Cas 2 (BitVec (8 * 2)) :=
  hooks.syncValCompareAndSwap16
def ckAtomiSyncFetchAndAdd8 : Fetch 1 := hooks.atomicFetchadd8
def ckAtomiSyncFetchAndSub8 : Fetch 1 := hooks.atomicFetchsub8
def ckAtomiSyncFetchAndOr8 : Fetch 1 := hooks.atomicFetchor8
def ckAtomiSyncFetchAndAnd8 : Fetch 1 := hooks.atomicFetchand8
def ckAtomiSyncFetchAndXor8 : Fetch 1 := hooks.atomicFetchxor8
def ckAtomiSyncBoolCompareAndSwap8 : Cas 1 Bool :=
  returning (· != 0) hooks.syncBoolCompareAndSwap8
def ckAtomiSyncValCompareAndSwap8 : Cas 1 (BitVec (8 * 1)) :=
  hooks.syncValCompareAndSwap8
def ckAtomiSyncFetchAndAddPtr : Fetch 8 := hooks.atomicFetchaddPtr
def ckAtomiSyncFetchAndSubPtr : Fetch 8 := hooks.atomicFetchsubPtr
def ckAtomiSyncFetchAndOrPtr : Fetch 8 := hooks.atomicFetchorPtr
def ckAtomiSyncFetchAndAndPtr : Fetch 8 := hooks.atomicFetchandPtr
def ckAtomiSyncFetchAndXorPtr : Fetch 8 := hooks.atomicFetchxorPtr
def ckAtomiSyncBoolCompareAndSwapPtr : Cas 8 Bool :=
  returning (· != 0) hooks.syncBoolCompareAndSwapPtr
def ckAtomiSyncValCompareAndSwapPtr : Cas 8 (BitVec (8 * 8)) :=
  hooks.syncValCompareAndSwapPtr

end wrappers

end VosStack.Ck
