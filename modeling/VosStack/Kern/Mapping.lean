import VosStack.Kern.Malloc

/-!
# Kernel memory from mapped pages

`kmem_malloc` rounds a size up to whole pages and asks the host for that many bytes through
`context_mmap` and `port_mmap`; `vmem_alloc` is `kmem_malloc` with a status. A host without a
mapping answers `MAP_FAILED`, which is the address `-1`, while `kmem_malloc` tests for `NULL`, which
only a missing hook gives. When there is no mapping it therefore returns `-1`, after it has written
zeros there if it was asked to; `vmem_alloc` reports success in any case.

The rounding wraps around: exactly the sizes too large to be rounded, and 0, are rounded to 0
(`le_roundPage`), which no host maps. The functions do what they are for exactly when a mapping is
obtained, and `kmem_malloc` also when there is no hook.

The host is `mmap`, or the two calls of Windows that stand for it; both are parameters.
-/

namespace VosStack.Kern

/-! ### The host -/

/-- A mapping of `len` bytes, as a host makes them: not empty, and not at `NULL`. -/
structure Mapping (len : BitVec 64) where
  addr : BitVec 64
  /-- the bytes found there -/
  bytes : BitVec 64 → BitVec 8
  addr_ne : addr ≠ 0#64
  len_ne : len ≠ 0#64

/-- The protection that `mmap` is called with: `PROT_READ`, `PROT_WRITE`. -/
structure HostProt where
  read : Bool
  write : Bool
  deriving DecidableEq, Repr

/-- The flags that `mmap` is called with: `MAP_SHARED`, `MAP_PRIVATE`, `MAP_ANON`. -/
structure HostFlags where
  shared : Bool
  priv : Bool
  anon : Bool
  deriving DecidableEq, Repr

/-- The protection of a file mapping of Windows. -/
inductive PageProt
  | none
  | executeReadwrite
  | executeRead
  | readwrite
  | readonly
  deriving DecidableEq, Repr

/-- The access to a view: `FILE_MAP_READ`, `FILE_MAP_WRITE`, `FILE_MAP_EXECUTE`. -/
structure FileAccess where
  read : Bool
  write : Bool
  execute : Bool
  deriving DecidableEq, Repr

/-- The calls of Windows. A handle is a number; `none` is `INVALID_HANDLE_VALUE`, or no handle. -/
structure Windows where
  /-- `_get_osfhandle` -/
  getOsfhandle : BitVec 32 → Option ℕ
  /-- `CreateFileMapping`, with the low half of the maximal size -/
  createFileMapping : Option ℕ → PageProt → BitVec 32 → Option ℕ
  /-- `MapViewOfFile`, with the low half of the offset -/
  mapViewOfFile : ℕ → FileAccess → BitVec 32 → (len : BitVec 64) → Option (Mapping len)

/-- The host, by the branch of `port_mmap` compiled for it. -/
inductive Host
  /-- `mmap(addr, len, prot, flags, fildes, off)`; `none` is `MAP_FAILED` -/
  | posix (mmap : BitVec 64 → (len : BitVec 64) → HostProt → HostFlags → BitVec 32 → BitVec 64 →
      Option (Mapping len))
  | windows (w : Windows)

/-- The memory: what is at each mapped address, and where it was written. -/
structure Space where
  byte : BitVec 64 → Option (BitVec 8)
  /-- address and length of the writes so far -/
  touched : List (BitVec 64 × BitVec 64)

namespace Space

/-- The memory with a mapping. -/
def map (s : Space) {len : BitVec 64} (m : Mapping len) : Space :=
  { s with byte := fun a => if a - m.addr < len then some (m.bytes (a - m.addr)) else s.byte a }

/-- `bzero`. -/
def bzero (s : Space) (addr n : BitVec 64) : Space :=
  if n = 0#64 then s
  else
    { byte := fun a => if a - addr < n then (s.byte a).map fun _ => 0#8 else s.byte a
      touched := s.touched ++ [(addr, n)] }

end Space

/-! ### The port -/

/-- `VOS_MAP_FAILED`. -/
def vosMapFailed : BitVec 64 := -1

/-- `VOS_MAP_FIXED`. -/
def vosMapFixed : BitVec 32 := 0x10

/-- `VOS_MAP_ANONYMOUS`, also called `VOS_MAP_ANON`. -/
def vosMapAnon : BitVec 32 := 0x20

/-- `VOS_MAP_SHARED`. -/
def vosMapShared : BitVec 32 := 0x1

/-- `VOS_MAP_PRIVATE`. -/
def vosMapPrivate : BitVec 32 := 0x2

/-- `VOS_MAP_PROT_READ`. -/
def vosMapProtRead : BitVec 32 := 0x1

/-- `VOS_MAP_PROT_WRITE`. -/
def vosMapProtWrite : BitVec 32 := 0x2

/-- `VOS_MAP_PROT_EXEC`. -/
def vosMapProtExec : BitVec 32 := 0x4

/-- `_mmap_prot_page`. -/
def mmapProtPage (prot : BitVec 32) : PageProt :=
  if prot = 0 then .none
  else if prot &&& vosMapProtExec ≠ 0 then
    if prot &&& vosMapProtWrite ≠ 0 then .executeReadwrite else .executeRead
  else if prot &&& vosMapProtWrite ≠ 0 then .readwrite else .readonly

/-- `_mmap_prot_file`. -/
def mmapProtFile (prot : BitVec 32) : FileAccess where
  read := prot &&& vosMapProtRead != 0
  write := prot &&& vosMapProtWrite != 0
  execute := prot &&& vosMapProtExec != 0

/-- The mapping that `port_mmap` gets from the host, if any. -/
def portMmapping (host : Host) (addr len : BitVec 64) (prot flags fildes : BitVec 32)
    (off : BitVec 64) : Option (Mapping len) :=
  match host with
  | .posix mmap =>
    mmap addr len
      ⟨prot &&& vosMapProtRead == vosMapProtRead, prot &&& vosMapProtWrite == vosMapProtWrite⟩
      ⟨flags &&& vosMapShared == vosMapShared, flags &&& vosMapPrivate == vosMapPrivate,
        flags &&& vosMapAnon == vosMapAnon⟩
      fildes off
  | .windows w =>
    if len = 0 ∨ flags &&& vosMapFixed ≠ 0 ∨ vosMapProtExec = prot then none
    else
      let anon := flags &&& vosMapAnon ≠ 0
      let h := if fildes = -1 ∨ anon then none else w.getOsfhandle fildes
      if fildes ≠ -1 ∧ h = none ∧ ¬ anon then none
      else
        (w.createFileMapping h (mmapProtPage prot) ((off + len).setWidth 32)).bind fun fm =>
          w.mapViewOfFile fm (mmapProtFile prot) (off.setWidth 32) len

/-- `port_mmap`. All ways to fail return `VOS_MAP_FAILED`. -/
def portMmap (host : Host) (s : Space) (addr len : BitVec 64) (prot flags fildes : BitVec 32)
    (off : BitVec 64) : Space × BitVec 64 :=
  match portMmapping host addr len prot flags fildes off with
  | none => (s, vosMapFailed)
  | some m => (s.map m, m.addr)

/-! ### The context and the kernel -/

/-- `context_mmap`. The hook is `port_mmap` on some host, or missing. -/
def contextMmap (hook : Option Host) (s : Space) (addr len : BitVec 64)
    (prot flags fd : BitVec 32) (offset : BitVec 64) : Space × BitVec 64 :=
  match hook with
  | none => (s, 0#64)
  | some host => portMmap host s addr len prot flags fd offset

/-- `PAGE_MASK`. -/
def pageMask : BitVec 64 := 4095

/-- `round_page`. -/
def roundPage (x : BitVec 64) : BitVec 64 := (x + pageMask) &&& ~~~ pageMask

/-- `kmem_malloc`. -/
def kmemMalloc (hook : Option Host) (s : Space) (bytes : BitVec 64) (flags : BitVec 32) :
    Space × BitVec 64 :=
  let asize := roundPage bytes
  let r := contextMmap hook s 0 asize (vosMapProtRead ||| vosMapProtWrite)
    (vosMapAnon ||| vosMapPrivate) (-1) 0
  (if flags &&& mZero ≠ 0#32 ∧ r.2 ≠ 0#64 then r.1.bzero r.2 asize else r.1, r.2)

/-- `vmem_alloc`: the status, and what it stores at `addrp`. -/
def vmemAlloc (hook : Option Host) (s : Space) (size : BitVec 64) : Space × BitVec 32 × BitVec 64 :=
  let r := kmemMalloc hook s size mWaitok
  (r.1, 0, r.2)

/-! ### Rounding -/

/-- Clearing the low bits of a number takes away its remainder. -/
theorem toNat_and_not_pageMask (x : BitVec 64) :
    (x &&& ~~~ pageMask).toNat + x.toNat % 4096 = x.toNat := by
  have hdisjoint : (x &&& ~~~ pageMask) &&& (x &&& pageMask) = 0#64 := by
    ext i
    simp only [BitVec.getElem_and, BitVec.getElem_not, BitVec.getElem_zero]
    cases pageMask[i] <;> simp
  have hjoin : (x &&& ~~~ pageMask) ||| (x &&& pageMask) = x := by
    ext i
    simp only [BitVec.getElem_or, BitVec.getElem_and, BitVec.getElem_not]
    cases pageMask[i] <;> simp
  have hlow : (x &&& pageMask).toNat = x.toNat % 4096 :=
    (BitVec.toNat_and x pageMask).trans (Nat.and_two_pow_sub_one_eq_mod x.toNat 12)
  have hsum := BitVec.toNat_add_of_and_eq_zero hdisjoint
  rw [BitVec.add_eq_or_of_and_eq_zero _ _ hdisjoint, hjoin, hlow] at hsum
  exact hsum.symm

/-- A size is rounded up, or to 0. -/
theorem le_roundPage {x : BitVec 64} (h : roundPage x ≠ 0#64) : x ≤ roundPage x := by
  have hne : (roundPage x).toNat ≠ 0 := fun h0 => h (BitVec.eq_of_toNat_eq h0)
  have hround : (roundPage x).toNat + (x + pageMask).toNat % 4096 = (x + pageMask).toNat :=
    toNat_and_not_pageMask (x + pageMask)
  have hadd : (x + pageMask).toNat = (x.toNat + 4095) % 2 ^ 64 := BitVec.toNat_add x pageMask
  -- past the top of the address range less than a page is left, which is rounded to 0
  rw [BitVec.le_def]
  omega

/-! ### What is obtained -/

/-- The mapping that `kmem_malloc` gets. -/
def kmemMapping (hook : Option Host) (bytes : BitVec 64) : Option (Mapping (roundPage bytes)) :=
  hook.bind fun host =>
    portMmapping host 0 (roundPage bytes) (vosMapProtRead ||| vosMapProtWrite)
      (vosMapAnon ||| vosMapPrivate) (-1) 0

/-- A mapping of at least the requested number of bytes is obtained. -/
def Obtained (hook : Option Host) (bytes : BitVec 64) : Prop :=
  (kmemMapping hook bytes).isSome ∧ bytes ≤ roundPage bytes

/-- What `kmem_malloc` is to do: `NULL` exactly without a mapping, and then nothing is written;
otherwise the bytes asked for are there, and zero if that was asked for. -/
structure KmemCorrect (hook : Option Host) (s : Space) (bytes : BitVec 64) (flags : BitVec 32) :
    Prop where
  null_iff : (kmemMalloc hook s bytes flags).2 = 0#64 ↔ ¬ Obtained hook bytes
  untouched : ¬ Obtained hook bytes → (kmemMalloc hook s bytes flags).1 = s
  region : Obtained hook bytes → ∀ a, a - (kmemMalloc hook s bytes flags).2 < bytes →
    ∃ x, (kmemMalloc hook s bytes flags).1.byte a = some x ∧ (flags &&& mZero ≠ 0#32 → x = 0#8)

/-- What `vmem_alloc` is to do: success only with a valid address, and an error otherwise. -/
structure VmemCorrect (hook : Option Host) (s : Space) (size : BitVec 64) : Prop where
  valid : (vmemAlloc hook s size).2.1 = 0#32 →
    (vmemAlloc hook s size).2.2 ≠ 0#64 ∧
      ∀ a, a - (vmemAlloc hook s size).2.2 < size → ((vmemAlloc hook s size).1.byte a).isSome
  error : ¬ Obtained hook size → (vmemAlloc hook s size).2.1 ≠ 0#32

section correct

variable {hook : Option Host} {s : Space} {bytes : BitVec 64} {flags : BitVec 32}

theorem obtained_of_mapping {m : Mapping (roundPage bytes)} (h : kmemMapping hook bytes = some m) :
    Obtained hook bytes :=
  ⟨h ▸ rfl, le_roundPage m.len_ne⟩

theorem not_obtained_of_none (h : kmemMapping hook bytes = none) : ¬ Obtained hook bytes := by
  rintro ⟨hsome, -⟩
  rw [h] at hsome
  cases hsome

theorem Space.byte_map {len a : BitVec 64} {m : Mapping len} (ha : a - m.addr < len) :
    (s.map m).byte a = some (m.bytes (a - m.addr)) :=
  if_pos ha

theorem Space.byte_bzero_map {len a : BitVec 64} {m : Mapping len} (ha : a - m.addr < len) :
    ((s.map m).bzero m.addr len).byte a = some 0#8 := by
  rw [bzero, if_neg m.len_ne]
  simp only [if_pos ha, byte_map ha, Option.map_some]

/-- Without a hook the answer is `NULL`. -/
theorem kmemMalloc_none : kmemMalloc none s bytes flags = (s, 0#64) := by
  simp only [kmemMalloc, contextMmap, ne_eq, not_true_eq_false, and_false, if_false]

/-- Without a mapping the answer is the address of the failure. -/
theorem snd_kmemMalloc_of_failed {host : Host} (h : kmemMapping (some host) bytes = none) :
    (kmemMalloc (some host) s bytes flags).2 = vosMapFailed := by
  have hport : portMmapping host 0 (roundPage bytes) (vosMapProtRead ||| vosMapProtWrite)
    (vosMapAnon ||| vosMapPrivate) (-1) 0 = none := h
  simp only [kmemMalloc, contextMmap, portMmap, hport]

theorem kmemMalloc_of_mapping {m : Mapping (roundPage bytes)}
    (h : kmemMapping hook bytes = some m) :
    kmemMalloc hook s bytes flags =
      (if flags &&& mZero ≠ 0#32 then (s.map m).bzero m.addr (roundPage bytes) else s.map m,
        m.addr) := by
  obtain ⟨host, rfl, hport⟩ := Option.bind_eq_some_iff.mp h
  simp only [kmemMalloc, contextMmap, portMmap, hport, ne_eq, m.addr_ne, not_false_eq_true,
    and_true]

/-- The bytes of the mapping are there. -/
theorem region_of_mapping (s : Space) (flags : BitVec 32) {m : Mapping (roundPage bytes)}
    (h : kmemMapping hook bytes = some m) {a : BitVec 64} (ha : a - m.addr < bytes) :
    ∃ x, (kmemMalloc hook s bytes flags).1.byte a = some x ∧
      (flags &&& mZero ≠ 0#32 → x = 0#8) := by
  have ha' : a - m.addr < roundPage bytes := by
    have hle : bytes ≤ roundPage bytes := le_roundPage m.len_ne
    bv_omega
  rw [kmemMalloc_of_mapping h]
  split_ifs with hz
  · exact ⟨0#8, Space.byte_bzero_map ha', fun _ => rfl⟩
  · exact ⟨_, Space.byte_map ha', fun hz' => absurd hz' hz⟩

/-- `kmem_malloc` is right with a mapping and without a hook; a hook that fails it takes for
memory. -/
theorem kmemCorrect_iff : KmemCorrect hook s bytes flags ↔ hook = none ∨ Obtained hook bytes := by
  constructor
  · intro h
    cases hook with
    | none => exact .inl rfl
    | some host =>
      cases hm : kmemMapping (some host) bytes with
      | none =>
        -- the failure is not `NULL`
        have hret := h.null_iff.mpr (not_obtained_of_none hm)
        rw [snd_kmemMalloc_of_failed hm] at hret
        exact absurd hret (by decide)
      | some m => exact .inr (obtained_of_mapping hm)
  · intro h
    cases hm : kmemMapping hook bytes with
    | none =>
      have hno : ¬ Obtained hook bytes := not_obtained_of_none hm
      obtain rfl : hook = none := h.resolve_right hno
      refine ⟨?_, ?_, fun hyes => absurd hyes hno⟩
      · rw [kmemMalloc_none]
        exact iff_of_true rfl hno
      · intro _
        rw [kmemMalloc_none]
    | some m =>
      have hyes : Obtained hook bytes := obtained_of_mapping hm
      refine ⟨?_, fun hno => absurd hyes hno, ?_⟩
      · rw [kmemMalloc_of_mapping hm]
        exact iff_of_false m.addr_ne (not_not_intro hyes)
      · intro _ a ha
        rw [kmemMalloc_of_mapping hm] at ha
        exact region_of_mapping s flags hm ha

/-- `vmem_alloc` never reports an error. -/
theorem vmemCorrect_iff : VmemCorrect hook s bytes ↔ Obtained hook bytes := by
  constructor
  · intro h
    by_contra hno
    exact h.error hno rfl
  · intro hyes
    obtain ⟨m, hm⟩ := Option.isSome_iff_exists.mp hyes.1
    have haddr : (vmemAlloc hook s bytes).2.2 = m.addr := by
      rw [vmemAlloc, kmemMalloc_of_mapping hm]
    refine ⟨fun _ => ⟨haddr ▸ m.addr_ne, ?_⟩, fun hno => absurd hyes hno⟩
    intro a ha
    rw [haddr] at ha
    obtain ⟨x, hx, -⟩ := region_of_mapping s mWaitok hm ha
    exact Option.isSome_iff_exists.mpr ⟨x, hx⟩

end correct

/-- **Kernel memory.** For every host and every answer of it, every size and all flags: both
functions do what they are for exactly when a mapping of the size is obtained. -/
theorem kmem_vmem_correct_iff (hook : Option Host) (s : Space) (bytes : BitVec 64)
    (flags : BitVec 32) :
    KmemCorrect hook s bytes flags ∧ VmemCorrect hook s bytes ↔ Obtained hook bytes := by
  rw [kmemCorrect_iff, vmemCorrect_iff]
  exact ⟨And.right, fun h => ⟨.inr h, h⟩⟩

/-- A host that has no memory: `kmem_malloc(1, M_ZERO)` writes a page of zeros at `-1` and returns
that address, a size that cannot be rounded gives it as well, and `vmem_alloc` says 0. -/
theorem kmemMalloc_takes_failure :
    let s : Space := ⟨fun _ => none, []⟩
    let hook := some (Host.posix fun _ _ _ _ _ _ => none)
    (kmemMalloc hook s 1 mZero).2 = -1#64 ∧ (kmemMalloc hook s 1 mZero).1.touched = [(-1, 4096)] ∧
      (kmemMalloc hook s (-1) mZero).2 = -1#64 ∧ roundPage (-1) = 0#64 ∧
      (vmemAlloc hook s 1).2 = (0#32, -1#64) ∧
      ¬ (KmemCorrect hook s 1 mZero ∧ VmemCorrect hook s 1) := by
  refine ⟨rfl, rfl, rfl, rfl, rfl, ?_⟩
  rintro ⟨h, -⟩
  exact absurd (h.null_iff.mpr (not_obtained_of_none rfl)) (by decide)

end VosStack.Kern
