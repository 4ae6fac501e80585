import VosStack.Text.Numeral
import Mathlib.Data.List.Basic

/-!
# IPv4 addresses as text

`inet_ntop4` and `inet_pton4` of libkern. An address is the list of its four bytes in network
order, and a text the list of its characters without the final zero.

`inet_pton4` accepts only what `inet_ntop4` writes: four numbers from 0 to 255 without leading
zeros, with dots between them. So each is the inverse of the other.
-/

namespace VosStack.Inet

open Text

/-! ### Printing -/

/-- `hex2ascii_data`. -/
def hex2asciiData : List Char :=
  ['0', '1', '2', '3', '4', '5', '6', '7', '8', '9', 'a', 'b', 'c', 'd', 'e', 'f', 'g', 'h', 'i',
    'j', 'k', 'l', 'm', 'n', 'o', 'p', 'q', 'r', 's', 't', 'u', 'v', 'w', 'x', 'y', 'z']

/-- `hex2ascii`. -/
def hex2ascii (hex : ℕ) : Char := hex2asciiData.getD hex (Char.ofNat 0)

/-- What `ksprintn` puts into its buffer, the lowest digit first; its loop ends within `fuel`
turns. -/
def ksprintn (base : ℕ) : ℕ → ℕ → List Char
  | 0, _ => []
  | fuel + 1, num =>
    hex2ascii (num % base) :: if num / base = 0 then [] else ksprintn base fuel (num / base)

/-- What `%u` (base 10) and `%x` (base 16) print: `kvprintf` puts the buffer out from its end. -/
def formatUnsigned (base num : ℕ) : List Char := (ksprintn base (num + 1) num).reverse

/-- The text of an address: the format `"%u.%u.%u.%u"`. -/
def dotted (src : List UInt8) : List Char :=
  formatUnsigned 10 (src.getD 0 0).toNat ++ '.' ::
    (formatUnsigned 10 (src.getD 1 0).toNat ++ '.' ::
      (formatUnsigned 10 (src.getD 2 0).toNat ++ '.' ::
        formatUnsigned 10 (src.getD 3 0).toNat))

/-- `inet_ntop4`: `snprintf` into a buffer of 16 bytes, and `strlcpy`. -/
def inetNtop4 (src : List UInt8) (size : ℕ) : Option (List Char) :=
  let l := (dotted src).length
  if l = 0 ∨ size ≤ l then none else some (((dotted src).take 15).take (size - 1))

/-! ### Reading -/

/-- The variables of `inet_pton4`: the bytes before `tp`, and the one at `tp`. -/
structure Pton4 where
  tmp : List ℕ
  tp : ℕ
  sawDigit : Bool
  octets : ℕ
  deriving DecidableEq, Repr

/-- `digits`. -/
def digits : List Char := ['0', '1', '2', '3', '4', '5', '6', '7', '8', '9']

/-- A turn of the loop of `inet_pton4`. -/
def pton4Step (s : Pton4) (ch : Char) : Option Pton4 :=
  match digits.idxOf? ch with
  | some d =>
    if s.sawDigit ∧ s.tp = 0 then none
    else if 255 < s.tp * 10 + d then none
    else if s.sawDigit then some { s with tp := s.tp * 10 + d }
    else if 4 < s.octets + 1 then none
    else some { s with tp := s.tp * 10 + d, octets := s.octets + 1, sawDigit := true }
  | none =>
    if ch = '.' ∧ s.sawDigit then
      if s.octets = 4 then none
      else some { s with tmp := s.tmp ++ [s.tp], tp := 0, sawDigit := false }
    else none

/-- The loop of `inet_pton4`. -/
def pton4Loop (src : List Char) (s : Pton4) : Option Pton4 := src.foldlM pton4Step s

/-- `inet_pton4`: the bytes of the address, or `none` if it returns 0. -/
def inetPton4 (src : List Char) : Option (List UInt8) :=
  (pton4Loop src ⟨[], 0, false, 0⟩).bind fun s =>
    if s.octets < 4 then none else some ((s.tmp ++ [s.tp]).map UInt8.ofNat)

/-! ### Digits -/

theorem idxOf_hex2ascii : ∀ d, d < 10 → digits.idxOf? (hex2ascii d) = some d := by decide

theorem idxOf_dot : digits.idxOf? '.' = none := by decide

theorem hex2ascii_of_idxOf {ch : Char} {d : ℕ} (h : digits.idxOf? ch = some d) :
    d < 10 ∧ ch = hex2ascii d := by
  obtain ⟨hlt, hch, -⟩ := List.idxOf?_eq_some_iff.mp h
  have hlt : d < 10 := hlt
  have hget : ∀ d, d < 10 → digits[d]? = some (hex2ascii d) := by decide
  have hsome : digits[d]? = some ch := List.getElem?_eq_some_iff.mpr ⟨_, by simpa using hch⟩
  exact ⟨hlt, Option.some.inj (hsome.symm.trans (hget d hlt))⟩

/-- The digits of a numeral, in the opposite order. A number less than `fuel` has at most `fuel`
digits. -/
theorem reverse_ksprintn {base fuel num : ℕ} (hbase : 2 ≤ base) (h : num < fuel) :
    (ksprintn base fuel num).reverse = (numeral base num).map hex2ascii := by
  induction fuel generalizing num with
  | zero => exact absurd h (Nat.not_lt_zero num)
  | succ fuel ih =>
    rw [ksprintn, List.reverse_cons]
    by_cases hlt : num < base
    · rw [if_pos (Nat.div_eq_of_lt hlt), Nat.mod_eq_of_lt hlt, numeral_of_lt hlt]
      rfl
    · have hne : num / base ≠ 0 := Nat.div_ne_zero_iff.mpr ⟨by omega, by omega⟩
      have hdiv : num / base < num := Nat.div_lt_self (by omega) hbase
      have hnum := numeral_of_le hbase (Nat.not_lt.mp hlt)
      rw [if_neg hne, ih (by omega), hnum, List.map_append, List.map_singleton]

theorem formatUnsigned_eq {base : ℕ} (hbase : 2 ≤ base) (num : ℕ) :
    formatUnsigned base num = (numeral base num).map hex2ascii :=
  reverse_ksprintn hbase (Nat.lt_succ_self num)

theorem formatUnsigned_of_lt {base d : ℕ} (h : d < base) (hbase : 2 ≤ base) :
    formatUnsigned base d = [hex2ascii d] := by
  rw [formatUnsigned_eq hbase, numeral_of_lt h, List.map_singleton]

theorem formatUnsigned_append_digit {base m d : ℕ} (hm : m ≠ 0) (hd : d < base)
    (hbase : 2 ≤ base) :
    formatUnsigned base (m * base + d) = formatUnsigned base m ++ [hex2ascii d] := by
  rw [formatUnsigned_eq hbase, numeral_append_digit hm hd hbase, List.map_append,
    List.map_singleton, formatUnsigned_eq hbase]

theorem length_formatUnsigned_le {base n k : ℕ} (hbase : 2 ≤ base) (hn : n < base ^ (k + 1)) :
    (formatUnsigned base n).length ≤ k + 1 := by
  rw [formatUnsigned_eq hbase, List.length_map]
  exact length_numeral_le hbase hn

/-- The text of a byte has at most three digits. -/
theorem length_formatUnsigned_byte (a : UInt8) : (formatUnsigned 10 a.toNat).length ≤ 3 := by
  have hlt : a.toNat < 10 ^ (2 + 1) := by
    have := a.toNat_lt
    omega
  exact length_formatUnsigned_le (by decide) hlt

/-- The text fits the buffer of `inet_ntop4`. -/
theorem length_dotted (src : List UInt8) :
    0 < (dotted src).length ∧ (dotted src).length ≤ 15 := by
  have h₀ := length_formatUnsigned_byte (src.getD 0 0)
  have h₁ := length_formatUnsigned_byte (src.getD 1 0)
  have h₂ := length_formatUnsigned_byte (src.getD 2 0)
  have h₃ := length_formatUnsigned_byte (src.getD 3 0)
  simp only [dotted, List.length_append, List.length_cons]
  omega

theorem inetNtop4_of_lt {src : List UInt8} {size : ℕ} (h : (dotted src).length < size) :
    inetNtop4 src size = some (dotted src) := by
  obtain ⟨hpos, hle⟩ := length_dotted src
  rw [inetNtop4, if_neg (by omega), List.take_of_length_le hle, List.take_of_length_le (by omega)]

theorem inetNtop4_eq_some_iff {src : List UInt8} {size : ℕ} {text : List Char} :
    inetNtop4 src size = some text ↔ (dotted src).length < size ∧ text = dotted src := by
  obtain ⟨hpos, hle⟩ := length_dotted src
  by_cases hlt : (dotted src).length < size
  · rw [inetNtop4_of_lt hlt, Option.some.injEq, and_iff_right hlt, eq_comm]
  · rw [inetNtop4, if_pos (by omega)]
    simp [hlt]

/-! ### What is printed is accepted -/

theorem pton4Loop_cons (ch : Char) (src : List Char) (s : Pton4) :
    pton4Loop (ch :: src) s = (pton4Step s ch).bind (pton4Loop src) :=
  List.foldlM_cons

/-- An octet is read. -/
theorem pton4Loop_octet {n octets : ℕ} (hn : n ≤ 255) (ho : octets < 4) (tmp : List ℕ)
    (r : List Char) :
    pton4Loop (formatUnsigned 10 n ++ r) ⟨tmp, 0, false, octets⟩ =
      pton4Loop r ⟨tmp, n, true, octets + 1⟩ := by
  rw [formatUnsigned_eq (by decide)]
  refine run_numeral (fun n : ℕ => (⟨tmp, n, true, octets + 1⟩ : Pton4)) (N := 255) (by decide)
    (fun d r hd hle => ?_) (fun m d r hm hd hle => ?_) hn r
  · rw [pton4Loop_cons, pton4Step, idxOf_hex2ascii d hd]
    simp only [Bool.false_eq_true, false_and, if_false, Nat.zero_mul, Nat.zero_add]
    rw [if_neg (by omega), if_neg (by omega)]
    rfl
  · rw [pton4Loop_cons, pton4Step, idxOf_hex2ascii d hd]
    simp only [true_and, if_true]
    rw [if_neg hm, if_neg (by omega)]
    rfl

/-- A dot is read. -/
theorem pton4Loop_dot {n octets : ℕ} (ho : octets ≠ 4) (tmp : List ℕ) (r : List Char) :
    pton4Loop ('.' :: r) ⟨tmp, n, true, octets⟩ =
      pton4Loop r ⟨tmp ++ [n], 0, false, octets⟩ := by
  rw [pton4Loop_cons, pton4Step, idxOf_dot]
  simp only [and_self, if_true, if_neg ho]
  rfl

theorem inetPton4_dotted {src : List UInt8} (h : src.length = 4) :
    inetPton4 (dotted src) = some src := by
  obtain ⟨a, b, c, d, rfl⟩ := List.length_eq_four.mp h
  have hle : ∀ x : UInt8, x.toNat ≤ 255 := fun x => Nat.le_of_lt_succ x.toNat_lt
  have hread : pton4Loop (dotted [a, b, c, d]) ⟨[], 0, false, 0⟩ =
      some ⟨[a.toNat, b.toNat, c.toNat], d.toNat, true, 4⟩ := by
    simp only [dotted, List.getD_cons_zero, List.getD_cons_succ]
    rw [pton4Loop_octet (hle a) (by decide), pton4Loop_dot (by decide),
      pton4Loop_octet (hle b) (by decide), pton4Loop_dot (by decide),
      pton4Loop_octet (hle c) (by decide), pton4Loop_dot (by decide),
      ← List.append_nil (formatUnsigned 10 d.toNat), pton4Loop_octet (hle d) (by decide)]
    rfl
  rw [inetPton4, hread]
  simp

/-! ### Only what is printed is accepted -/

/-- What `inet_pton4` has read so far, given back from its variables. -/
structure Pton4.Reads (s : Pton4) (text : List Char) : Prop where
  text_eq : text = s.tmp.flatMap (fun n => formatUnsigned 10 n ++ ['.']) ++
    if s.sawDigit then formatUnsigned 10 s.tp else []
  octets_eq : s.octets = s.tmp.length + s.sawDigit.toNat
  octets_le : s.octets ≤ 4
  length_le : s.tmp.length ≤ 3
  tmp_le : ∀ n ∈ s.tmp, n ≤ 255
  tp_le : s.tp ≤ 255
  tp_eq : s.sawDigit = false → s.tp = 0

/-- A digit. -/
theorem Pton4.Reads.digit {s : Pton4} {text : List Char} (h : s.Reads text) {d : ℕ}
    (hd : d < 10) (hzero : ¬ (s.sawDigit = true ∧ s.tp = 0)) (hle : s.tp * 10 + d ≤ 255)
    {octets : ℕ} (ho : octets = s.octets + (!s.sawDigit).toNat) (hfour : octets ≤ 4) :
    Pton4.Reads ⟨s.tmp, s.tp * 10 + d, true, octets⟩ (text ++ [hex2ascii d]) where
  text_eq := by
    rw [h.text_eq, List.append_assoc]
    congr 1
    rcases hsaw : s.sawDigit with _ | _
    · simp only [h.tp_eq hsaw, Nat.zero_mul, Nat.zero_add, if_true, Bool.false_eq_true, if_false,
        List.nil_append, formatUnsigned_of_lt hd (by decide : 2 ≤ 10)]
    · have hne : s.tp ≠ 0 := fun heq => hzero ⟨hsaw, heq⟩
      simp only [if_true, formatUnsigned_append_digit hne hd (by decide : 2 ≤ 10)]
  octets_eq := by
    rw [ho, h.octets_eq]
    cases s.sawDigit <;> rfl
  octets_le := hfour
  length_le := h.length_le
  tmp_le := h.tmp_le
  tp_le := hle
  tp_eq := fun hfalse => absurd hfalse.symm Bool.false_ne_true

/-- A dot after a digit. -/
theorem Pton4.Reads.dot {s : Pton4} {text : List Char} (h : s.Reads text)
    (hsaw : s.sawDigit = true) (hfour : s.octets ≠ 4) :
    Pton4.Reads ⟨s.tmp ++ [s.tp], 0, false, s.octets⟩ (text ++ ['.']) where
  text_eq := by
    simp [h.text_eq, hsaw]
  octets_eq := by
    rw [h.octets_eq, hsaw, List.length_append]
    rfl
  octets_le := h.octets_le
  length_le := by
    have ho := h.octets_eq
    have hle := h.octets_le
    rw [hsaw, Bool.toNat_true] at ho
    simp only [List.length_append, List.length_singleton]
    omega
  tmp_le := by
    intro n hn
    rcases List.mem_append.mp hn with hn | hn
    · exact h.tmp_le n hn
    · exact List.mem_singleton.mp hn ▸ h.tp_le
  tp_le := Nat.zero_le _
  tp_eq := fun _ => rfl

theorem Pton4.Reads.step {s s' : Pton4} {text : List Char} {ch : Char} (h : s.Reads text)
    (hs : pton4Step s ch = some s') : s'.Reads (text ++ [ch]) := by
  rw [pton4Step] at hs
  split at hs
  · next d hidx =>
    obtain ⟨hd, rfl⟩ := hex2ascii_of_idxOf hidx
    split_ifs at hs with hzero hbig hsaw hfour
    · obtain rfl := Option.some.inj hs
      have ho : s.octets = s.octets + (!s.sawDigit).toNat := by rw [hsaw]; rfl
      have hread := h.digit hd hzero (by omega) ho h.octets_le
      rwa [← hsaw] at hread
    · obtain rfl := Option.some.inj hs
      exact h.digit hd hzero (by omega) (by rw [eq_false_of_ne_true hsaw]; rfl) (by omega)
  · split_ifs at hs with hdot hfour
    obtain rfl := Option.some.inj hs
    rw [hdot.1]
    exact h.dot hdot.2 hfour

theorem Pton4.Reads.loop {s s' : Pton4} {text src : List Char} (h : s.Reads text)
    (hs : pton4Loop src s = some s') : s'.Reads (text ++ src) := by
  induction src generalizing s text with
  | nil =>
    obtain rfl := Option.some.inj hs
    rwa [List.append_nil]
  | cons ch src ih =>
    rw [pton4Loop_cons] at hs
    obtain ⟨s₁, hs₁, hs⟩ := Option.bind_eq_some_iff.mp hs
    rw [← List.singleton_append, ← List.append_assoc]
    exact ih (h.step hs₁) hs

theorem dotted_of_inetPton4 {src : List Char} {dst : List UInt8} (h : inetPton4 src = some dst) :
    dst.length = 4 ∧ src = dotted dst := by
  obtain ⟨s, hs, hdst⟩ := Option.bind_eq_some_iff.mp h
  have hinit : Pton4.Reads ⟨[], 0, false, 0⟩ [] := by
    constructor <;> simp
  have hreads := hinit.loop hs
  rw [List.nil_append] at hreads
  split_ifs at hdst with hfour
  obtain rfl := Option.some.inj hdst
  have ho := hreads.octets_eq
  have hlen := hreads.length_le
  obtain ⟨hsaw, hthree⟩ : s.sawDigit = true ∧ s.tmp.length = 3 := by
    rcases hsaw : s.sawDigit with _ | _
    · rw [hsaw, Bool.toNat_false] at ho
      exact absurd hfour (by omega)
    · rw [hsaw, Bool.toNat_true] at ho
      exact ⟨rfl, by omega⟩
  obtain ⟨a, b, c, habc⟩ := List.length_eq_three.mp hthree
  have hread : src = formatUnsigned 10 a ++ '.' :: (formatUnsigned 10 b ++ '.' ::
      (formatUnsigned 10 c ++ '.' :: formatUnsigned 10 s.tp)) := by
    simpa [habc, hsaw] using hreads.text_eq
  have htmp := hreads.tmp_le
  rw [habc] at htmp ⊢
  have hnat : ∀ n, n ≤ 255 → (UInt8.ofNat n).toNat = n := fun n hn =>
    UInt8.toNat_ofNat_of_lt (Nat.lt_succ_of_le hn)
  refine ⟨rfl, hread.trans ?_⟩
  simp [dotted, hnat a (htmp a (by simp)), hnat b (htmp b (by simp)), hnat c (htmp c (by simp)),
    hnat s.tp hreads.tp_le]

/-- **`inet_pton4` inverts `inet_ntop4`.** With room for `INET_ADDRSTRLEN` characters every
address has a text, and a text is accepted and read as an address exactly if it is the text of
that address. -/
theorem inetPton4_eq_some_iff {src : List Char} {dst : List UInt8} :
    inetPton4 src = some dst ↔ dst.length = 4 ∧ inetNtop4 dst 16 = some src := by
  rw [inetNtop4_eq_some_iff]
  constructor
  · intro h
    obtain ⟨hfour, hsrc⟩ := dotted_of_inetPton4 h
    have hlen := length_dotted dst
    exact ⟨hfour, by omega, hsrc⟩
  · rintro ⟨hfour, -, rfl⟩
    exact inetPton4_dotted hfour

end VosStack.Inet
