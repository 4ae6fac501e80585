import VosStack.Inet.Printed
import Mathlib.Data.List.Induction

/-!
# The IPv6 round trip

What `inet_ntop6` prints, `inet_pton6` reads back as the same address, whichever form was chosen:
all eight groups, a run of zeros written as `::`, or the last two groups as an IPv4 address.

The reader is followed from one token to the next: at the start of a token nothing is pending, and
`curtok` is the text that is left (`pton6At`). The bytes behind `::` are then moved to the end of
the buffer one by one; `shiftLoop_eq` is the invariant of that loop.
-/

namespace VosStack.Inet

open Text

/-! ### The reader at a token -/

theorem xdigit_hex2ascii : ∀ d, d < 16 → xdigit (hex2ascii d) = some d := by decide

theorem xdigit_colon : xdigit ':' = none := by decide

theorem xdigit_dot : xdigit '.' = none := by decide

/-- Digits are read, not more than four. -/
theorem pton6Loop_digits {ds : List ℕ} (hds : ∀ d ∈ ds, d < 16) {s : Pton6}
    (hseen : s.seenXdigits + ds.length ≤ 4) (r : List Char) :
    pton6Loop (ds.map hex2ascii ++ r) s =
      pton6Loop r { s with
        val := ds.foldl (fun val d => val <<< 4 ||| d) s.val
        seenXdigits := s.seenXdigits + ds.length } := by
  induction ds generalizing s with
  | nil => rfl
  | cons d ds ih =>
    rw [List.length_cons] at hseen
    have hd : d < 16 := hds d List.mem_cons_self
    rw [List.map_cons, List.cons_append, pton6Loop, xdigit_hex2ascii d hd]
    have hrest : s.seenXdigits + 1 + ds.length ≤ 4 := by omega
    simp only [if_neg (Nat.not_lt.mpr (Nat.le_trans (Nat.le_add_right _ _) hrest))]
    rw [ih (fun d hd => hds d (List.mem_cons_of_mem _ hd)) hrest]
    simp only [List.foldl_cons, List.length_cons]
    rw [Nat.add_assoc, Nat.add_comm 1 ds.length]

/-- The digits of a group give its value. -/
theorem foldl_numeral (w : ℕ) :
    (numeral 16 w).foldl (fun val d => val <<< 4 ||| d) 0 = w := by
  refine digit_induction (P := fun w => (numeral 16 w).foldl (fun val d => val <<< 4 ||| d) 0 = w)
    (b := 16) (by decide) (fun d hd => ?_) (fun m d hm hd ih => ?_) w
  · rw [numeral_of_lt hd, List.foldl_cons, List.foldl_nil, Nat.zero_shiftLeft, Nat.zero_or]
  · rw [numeral_append_digit hm hd (by decide), List.foldl_append, ih, List.foldl_cons,
      List.foldl_nil, ← Nat.shiftLeft_add_eq_or_of_lt hd, Nat.shiftLeft_eq]

theorem pton6Loop_group {w : ℕ} (hw : w < 65536) (tmp : List UInt8) (c : Option ℕ)
    (tok r : List Char) :
    pton6Loop (formatUnsigned 16 w ++ r) ⟨tmp, c, 0, 0, tok⟩ =
      pton6Loop r ⟨tmp, c, w, (numeral 16 w).length, tok⟩ := by
  have hlen : 0 + (numeral 16 w).length ≤ 3 + 1 := by
    rw [Nat.zero_add]
    exact length_numeral_le (by decide) hw
  have hdigits : ∀ d ∈ numeral 16 w, d < 16 := fun d hd => lt_of_mem_numeral (by decide) hd
  rw [formatUnsigned_eq (by decide), pton6Loop_digits hdigits hlen]
  simp only [foldl_numeral, Nat.zero_add]

/-- `inet_pton6` from the start of a token on: nothing is pending, and `curtok` is the rest of the
text. -/
def pton6At (tmp : List UInt8) (colonp : Option ℕ) (src : List Char) : Option (List UInt8) :=
  pton6Read src ⟨tmp, colonp, 0, 0, src⟩

theorem pton6At_nil (tmp : List UInt8) (c : Option ℕ) : pton6At tmp c [] = pton6Fill c tmp := rfl

/-- The second colon of `::`. -/
theorem pton6At_colon (tmp : List UInt8) (r : List Char) :
    pton6At tmp none (':' :: r) = pton6At tmp (some tmp.length) r := by
  rw [pton6At, pton6Read, pton6Loop, xdigit_colon]
  rfl

section Reading

variable {tmp : List UInt8} {c : Option ℕ} {w : ℕ}

theorem store_eq (hlen : tmp.length + 2 ≤ 16) (seen : ℕ) (tok : List Char) :
    Pton6.store ⟨tmp, c, w, seen, tok⟩ = some (tmp ++ bytesOf w) :=
  if_neg (Nat.not_lt.mpr hlen)

/-- A group and the colon behind it. -/
theorem pton6At_group_colon (hw : w < 65536) (hlen : tmp.length + 2 ≤ 16) {r : List Char}
    (hr : r ≠ []) :
    pton6At tmp c (formatUnsigned 16 w ++ ':' :: r) = pton6At (tmp ++ bytesOf w) c r := by
  have hpos : (numeral 16 w).length ≠ 0 :=
    Nat.ne_of_gt (List.length_pos_of_ne_nil (numeral_ne_nil (by decide) w))
  rw [pton6At, pton6Read, pton6Loop_group hw, pton6Loop, xdigit_colon]
  simp only [if_true, if_neg hpos, if_neg hr, store_eq hlen]
  rfl

/-- A group at the end. -/
theorem pton6At_group (hw : w < 65536) (hlen : tmp.length + 2 ≤ 16) :
    pton6At tmp c (formatUnsigned 16 w) = pton6Fill c (tmp ++ bytesOf w) := by
  have hpos : (numeral 16 w).length ≠ 0 :=
    Nat.ne_of_gt (List.length_pos_of_ne_nil (numeral_ne_nil (by decide) w))
  have hloop := pton6Loop_group hw tmp c (formatUnsigned 16 w) []
  rw [List.append_nil] at hloop
  rw [pton6At, pton6Read, hloop, pton6Loop, Option.bind_some, pton6Finish, if_pos hpos,
    store_eq hlen, Option.bind_some]

/-- An IPv4 address at the end. Its first number is read as hexadecimal digits before the dot is
seen. -/
theorem pton6At_dotted {b : List UInt8} (hb : b.length = 4) (hlen : tmp.length + 4 ≤ 16) :
    pton6At tmp c (dotted b) = pton6Fill c (tmp ++ b) := by
  obtain ⟨r, hr⟩ : ∃ r, dotted b = (numeral 10 (b.getD 0 0).toNat).map hex2ascii ++ '.' :: r :=
    ⟨_, by rw [dotted, formatUnsigned_eq (by decide)]⟩
  have hdigits : ∀ d ∈ numeral 10 (b.getD 0 0).toNat, d < 16 := by
    intro d hd
    have := lt_of_mem_numeral (by decide : 2 ≤ 10) hd
    omega
  have hnum : 0 + (numeral 10 (b.getD 0 0).toNat).length ≤ 4 := by
    have hbyte := (b.getD 0 0).toNat_lt
    have hlen : (numeral 10 (b.getD 0 0).toNat).length ≤ 2 + 1 :=
      length_numeral_le (by decide) (by omega)
    omega
  rw [pton6At, pton6Read]
  nth_rewrite 1 [hr]
  rw [pton6Loop_digits hdigits hnum, pton6Loop, xdigit_dot]
  simp only [Char.reduceEq, if_false, true_and, if_pos hlen, inetPton4_dotted hb]
  rfl

/-- Groups up to the end. -/
theorem pton6At_groups {ws : List ℕ} (hws : ∀ w ∈ ws, w < 65536)
    (hlen : tmp.length + 2 * ws.length ≤ 16) :
    pton6At tmp c (groups ws) = pton6Fill c (tmp ++ ws.flatMap bytesOf) := by
  induction ws generalizing tmp with
  | nil => rw [List.flatMap_nil, List.append_nil]; exact pton6At_nil tmp c
  | cons w ws ih =>
    rw [List.length_cons] at hlen
    have hw := hws w List.mem_cons_self
    have hrest : ∀ w ∈ ws, w < 65536 := fun w hw => hws w (List.mem_cons_of_mem _ hw)
    rw [List.flatMap_cons, ← List.append_assoc, groups]
    by_cases hnil : ws = []
    · rw [hnil, colonGroups, List.flatMap_nil, List.flatMap_nil, List.append_nil,
        List.append_nil, pton6At_group hw (by omega)]
    · have hne : groups ws ≠ [] := groups_ne_nil hnil
      rw [colonGroups_eq hnil, pton6At_group_colon hw (by omega) hne]
      refine ih hrest ?_
      rw [List.length_append]
      change tmp.length + 2 + 2 * ws.length ≤ 16
      omega

/-- Groups up to `::`. -/
theorem pton6At_groups_run {ws : List ℕ} (hne : ws ≠ []) (hws : ∀ w ∈ ws, w < 65536)
    (hlen : tmp.length + 2 * ws.length ≤ 16) (r : List Char) :
    pton6At tmp none (groups ws ++ ':' :: ':' :: r) =
      pton6At (tmp ++ ws.flatMap bytesOf) (some (tmp ++ ws.flatMap bytesOf).length) r := by
  induction ws generalizing tmp with
  | nil => exact absurd rfl hne
  | cons w ws ih =>
    rw [List.length_cons] at hlen
    have hw := hws w List.mem_cons_self
    have hrest : ∀ w ∈ ws, w < 65536 := fun w hw => hws w (List.mem_cons_of_mem _ hw)
    rw [List.flatMap_cons, ← List.append_assoc, groups, List.append_assoc]
    by_cases hnil : ws = []
    · rw [hnil, colonGroups, List.flatMap_nil, List.flatMap_nil, List.append_nil, List.nil_append,
        pton6At_group_colon hw (by omega) (List.cons_ne_nil _ _), pton6At_colon]
    · rw [colonGroups_eq hnil, List.cons_append, pton6At_group_colon hw (by omega)
        (List.append_ne_nil_of_left_ne_nil (groups_ne_nil hnil) _)]
      refine ih hnil hrest ?_
      rw [List.length_append]
      change tmp.length + 2 + 2 * ws.length ≤ 16
      omega

/-- Groups with a colon behind each, and an IPv4 address at the end. -/
theorem pton6At_groups_dotted {ws : List ℕ} (hws : ∀ w ∈ ws, w < 65536) {b : List UInt8}
    (hb : b.length = 4) (hlen : tmp.length + 2 * ws.length + 4 ≤ 16) :
    pton6At tmp c (ws.flatMap (formatUnsigned 16 · ++ [':']) ++ dotted b) =
      pton6Fill c (tmp ++ (ws.flatMap bytesOf ++ b)) := by
  induction ws generalizing tmp with
  | nil => exact pton6At_dotted hb hlen
  | cons w ws ih =>
    rw [List.length_cons] at hlen
    have hrest : ∀ w ∈ ws, w < 65536 := fun w hw => hws w (List.mem_cons_of_mem _ hw)
    have hne : ws.flatMap (formatUnsigned 16 · ++ [':']) ++ dotted b ≠ [] :=
      List.append_ne_nil_of_right_ne_nil _ (List.length_pos_iff.mp (length_dotted b).1)
    rw [List.flatMap_cons, List.append_assoc, List.append_assoc, List.singleton_append,
      pton6At_group_colon (hws w List.mem_cons_self) (by omega) hne, ih hrest, List.flatMap_cons]
    · simp only [List.append_assoc]
    · rw [List.length_append]
      change tmp.length + 2 + 2 * ws.length + 4 ≤ 16
      omega

end Reading

/-- A text that does not begin with a colon is read from its first token on. -/
theorem inetPton6_of_ne {ch : Char} (h : ch ≠ ':') (r : List Char) :
    inetPton6 (ch :: r) = pton6At [] none (ch :: r) := by
  rw [inetPton6]
  · rfl
  · exact fun r' heq => h (List.cons.inj heq).1
  · exact fun r' heq => h (List.cons.inj heq).1

/-- All groups. -/
theorem inetPton6_groups {ws : List ℕ} (hws : ∀ w ∈ ws, w < 65536) (hlen : ws.length = 8) :
    inetPton6 (groups ws) = some (ws.flatMap bytesOf) := by
  have hne : ws ≠ [] := by
    rintro rfl
    exact absurd hlen (by decide)
  obtain ⟨ch, r, hgroups, hch⟩ := groups_eq_cons hne
  rw [hgroups, inetPton6_of_ne hch, ← hgroups, pton6At_groups hws (by rw [hlen]; decide),
    List.nil_append, pton6Fill, if_neg]
  rw [length_flatMap_bytesOf, hlen]
  decide

/-- Groups up to `::`, none if the text begins with it. -/
theorem inetPton6_run {ws : List ℕ} (hws : ∀ w ∈ ws, w < 65536) (hlen : ws.length ≤ 8)
    (r : List Char) :
    inetPton6 (groups ws ++ ':' :: ':' :: r) =
      pton6At (ws.flatMap bytesOf) (some (ws.flatMap bytesOf).length) r := by
  by_cases hnil : ws = []
  · rw [hnil]
    exact pton6At_colon [] r
  · obtain ⟨ch, r', hgroups, hch⟩ := groups_eq_cons hnil
    rw [hgroups, List.cons_append, inetPton6_of_ne hch, ← List.cons_append, ← hgroups,
      pton6At_groups_run hnil hws (by rw [List.length_nil]; omega), List.nil_append]

/-! ### The place of the zeros -/

/-- One step of the shift after the other: the bytes of `b` have been moved, those of `a` have
not. -/
theorem shiftLoop_eq (p : List UInt8) {z n : ℕ} (a b : List UInt8)
    (hlen : p.length + a.length + (z + 1) + b.length = 16) (hn : n = a.length + b.length) :
    shiftLoop p.length n a.length (p ++ a ++ List.replicate (z + 1) 0 ++ b) =
      p ++ List.replicate (z + 1) 0 ++ (a ++ b) := by
  induction a using List.reverseRecOn generalizing b with
  | nil => rw [List.append_nil, List.nil_append]; rfl
  | append_singleton a x ih =>
    rw [List.length_append, List.length_singleton] at hlen hn ⊢
    have hi : n - (n - a.length) = a.length := by omega
    have htarget : 16 - (n - a.length) = (p ++ a ++ x :: List.replicate z 0).length := by
      simp only [List.length_append, List.length_cons, List.length_replicate]
      omega
    have hsource : p.length + a.length = (p ++ a).length := List.length_append.symm
    -- the byte `x` is copied to the last zero, and then cleared
    have hlist : p ++ (a ++ [x]) ++ List.replicate (z + 1) 0 ++ b =
        p ++ a ++ x :: List.replicate z 0 ++ 0 :: b := by
      rw [List.replicate_succ']
      simp
    have hget : (p ++ a ++ x :: List.replicate z 0 ++ 0 :: b).getD (p ++ a).length 0 = x := by
      simp
    have hcopied : (p ++ a ++ x :: List.replicate z 0 ++ 0 :: b).set
        (p ++ a ++ x :: List.replicate z 0).length x =
        p ++ a ++ x :: (List.replicate z 0 ++ x :: b) := by
      simp
    have hcleared : (p ++ a ++ x :: (List.replicate z 0 ++ x :: b)).set (p ++ a).length 0 =
        p ++ a ++ List.replicate (z + 1) 0 ++ x :: b := by
      rw [List.replicate_succ]
      simp
    rw [shiftLoop, hlist]
    simp only [hi, htarget, hsource, hget, hcopied, hcleared]
    rw [ih (x :: b) (by rw [List.length_cons]; omega) (by rw [List.length_cons]; omega)]
    simp

/-- The bytes behind `::` are moved to the end, and zeros stand between. -/
theorem pton6Fill_some {p m : List UInt8} (h : p.length + m.length < 16) :
    pton6Fill (some p.length) (p ++ m) =
      some (p ++ List.replicate (16 - (p.length + m.length)) 0 ++ m) := by
  obtain ⟨z, hz⟩ : ∃ z, 16 - (p.length + m.length) = z + 1 := ⟨16 - (p.length + m.length) - 1, by
    omega⟩
  have hshift := shiftLoop_eq p m [] (z := z) (n := m.length) (by rw [List.length_nil]; omega)
    (by rw [List.length_nil, Nat.add_zero])
  rw [pton6Fill, List.length_append, if_neg (by omega), Nat.add_sub_cancel_left, hz]
  rw [List.append_nil, List.append_nil] at hshift
  rw [hshift]

/-! ### The round trip -/

section RoundTrip

variable {src : List UInt8} {r : Run}

/-- The bytes around the run. -/
theorem bytes_around_run (h : src.length = 16) (hr : r.Zeros (words src)) :
    ((words src).take r.base).flatMap bytesOf ++ List.replicate (2 * r.len) 0 ++
      ((words src).drop (r.base + r.len)).flatMap bytesOf = src := by
  rw [← flatMap_bytesOf_zeros, List.append_assoc, ← List.flatMap_append, ← List.flatMap_append,
    hr.split, flatMap_words h]

/-- The address is read if the bytes around the run are. -/
theorem pton6Fill_around_run (h : src.length = 16) (hr : r.Zeros (words src)) :
    pton6Fill (some (((words src).take r.base).flatMap bytesOf).length)
      (((words src).take r.base).flatMap bytesOf ++
        ((words src).drop (r.base + r.len)).flatMap bytesOf) = some src := by
  have hend := hr.end_le
  have hpos := hr.len_pos
  have hlen : (((words src).take r.base).flatMap bytesOf).length +
      (((words src).drop (r.base + r.len)).flatMap bytesOf).length = 16 - 2 * r.len := by
    rw [length_flatMap_bytesOf, length_flatMap_bytesOf, List.length_take, List.length_drop]
    rw [length_words] at hend ⊢
    omega
  have hzeros : 16 - (16 - 2 * r.len) = 2 * r.len := by
    rw [length_words] at hend
    omega
  rw [pton6Fill_some (by omega), hlen, hzeros, bytes_around_run h hr]

/-- The words of an encapsulated address behind the run. -/
theorem bytes_encapsulated (h : src.length = 16) {l : ℕ} (hl : l ≤ 6) :
    (((words src).drop l).take (6 - l)).flatMap bytesOf ++ src.drop 12 =
      ((words src).drop l).flatMap bytesOf := by
  have hdrop : (words src).drop 6 = ((words src).drop l).drop (6 - l) := by
    rw [List.drop_drop, Nat.add_sub_cancel' hl]
  rw [← flatMap_drop_words h, hdrop, ← List.flatMap_append, List.take_append_drop]

/-- The address is printed, in at most 39 characters, as a text that is read as this address. -/
def ReadsBack (src : List UInt8) : Prop :=
  ∃ text, ntop6Text src = some text ∧ text.length ≤ 39 ∧ inetPton6 text = some src

theorem readsBack_of_none (h : src.length = 16) (hbest : bestRun (words src) = none) :
    ReadsBack src := by
  have hlt : ∀ w ∈ words src, w < 65536 := fun w hw => lt_of_mem_words hw
  have hlen := length_groups_le hlt
  rw [length_words] at hlen
  exact ⟨_, ntop6Text_of_none hbest, hlen,
    (inetPton6_groups hlt (length_words src)).trans (congrArg some (flatMap_words h))⟩

theorem readsBack_of_run (h : src.length = 16) (hbest : bestRun (words src) = some r)
    (hplain : encapsulated (words src) (some r) = true → 6 < r.base + r.len) : ReadsBack src := by
  obtain ⟨hr, htwo⟩ := zeros_bestRun hbest
  have hend := hr.end_le
  have hwords := length_words src
  have htake : ∀ w ∈ (words src).take r.base, w < 65536 := fun w hw =>
    lt_of_mem_words (List.mem_of_mem_take hw)
  have hdrop : ∀ w ∈ (words src).drop (r.base + r.len), w < 65536 := fun w hw =>
    lt_of_mem_words (List.mem_of_mem_drop hw)
  have hfront := length_groups_le htake
  have hback := length_groups_le hdrop
  rw [List.length_take] at hfront
  rw [List.length_drop] at hback
  refine ⟨_, ntop6Text_of_run hbest hplain, ?_, ?_⟩
  · simp only [List.length_append, List.length_cons]
    omega
  · rw [inetPton6_run htake (by rw [List.length_take]; omega), pton6At_groups hdrop,
      pton6Fill_around_run h hr]
    rw [length_flatMap_bytesOf, List.length_take, List.length_drop]
    omega

theorem readsBack_of_encapsulated (h : src.length = 16) (hbest : bestRun (words src) = some r)
    (henc : encapsulated (words src) (some r) = true) (hle : r.base + r.len ≤ 6) :
    ReadsBack src := by
  obtain ⟨hr, htwo⟩ := zeros_bestRun hbest
  have hwords := length_words src
  have hzero : r.base = 0 := (of_decide_eq_true henc).1
  have hlast : (src.drop 12).length = 4 := by rw [List.length_drop, h]
  have hmid : ∀ w ∈ ((words src).drop r.len).take (6 - r.len), w < 65536 := fun w hw =>
    lt_of_mem_words (List.mem_of_mem_drop (List.mem_of_mem_take hw))
  have hcount : (((words src).drop r.len).take (6 - r.len)).length = 6 - r.len := by
    rw [List.length_take, List.length_drop]
    omega
  refine ⟨_, ntop6Text_of_encapsulated hbest henc hle, ?_, ?_⟩
  · have hgroups := length_colonGroups_le hmid
    have hdotted := (length_dotted (src.drop 12)).2
    rw [List.length_cons, List.length_cons, List.length_append, length_flatMap_closed]
    omega
  · -- the text begins with the two colons: no group stands before them
    have hread : ∀ text, inetPton6 (groups [] ++ ':' :: ':' :: text) = pton6At [] (some 0) text :=
      inetPton6_run (fun w hw => absurd hw List.not_mem_nil) (by decide)
    have hfill := pton6Fill_around_run h hr
    rw [hzero, Nat.zero_add, List.take_zero, List.flatMap_nil, List.length_nil] at hfill
    refine (hread _).trans ?_
    rw [pton6At_groups_dotted hmid hlast, bytes_encapsulated h (by omega), hfill]
    rw [hcount, List.length_nil]
    omega

theorem readsBack (h : src.length = 16) : ReadsBack src := by
  cases hbest : bestRun (words src) with
  | none => exact readsBack_of_none h hbest
  | some r =>
    by_cases hplain : encapsulated (words src) (some r) = true → 6 < r.base + r.len
    · exact readsBack_of_run h hbest hplain
    · obtain ⟨henc, hle⟩ : encapsulated (words src) (some r) = true ∧ r.base + r.len ≤ 6 := by
        simpa using hplain
      exact readsBack_of_encapsulated h hbest henc hle

end RoundTrip

theorem inetNtop6_of_text {src : List UInt8} {text : List Char} (h : ntop6Text src = some text)
    (size : ℕ) : inetNtop6 src size = if text.length < size then some text else none := by
  rw [inetNtop6, h, Option.bind_some]
  by_cases hroom : text.length < size
  · rw [if_pos hroom, if_neg (by omega)]
  · rw [if_neg hroom, if_pos (by omega)]

/-- **`inet_pton6` inverts `inet_ntop6`.** Every address has a text of at most 39 characters that
is read as this address, and it is printed whenever there is room for it and its final zero. -/
theorem inetPton6_inetNtop6 {src : List UInt8} (h : src.length = 16) :
    ∃ text, text.length ≤ 39 ∧ inetPton6 text = some src ∧
      ∀ size, inetNtop6 src size = if text.length < size then some text else none := by
  obtain ⟨text, hprint, hlen, hread⟩ := readsBack h
  exact ⟨text, hlen, hread, inetNtop6_of_text hprint⟩

/-- The address `2001:db8::1`. -/
theorem inetPton6_inetNtop6_documentation :
    [(0x20 : UInt8), 0x01, 0x0d, 0xb8, 0, 0, 0, 0, 0, 0, 0, 0, 0, 0, 0, 1].length = 16 ∧
      ∃ text, text.length ≤ 39 ∧
        inetPton6 text = some [0x20, 0x01, 0x0d, 0xb8, 0, 0, 0, 0, 0, 0, 0, 0, 0, 0, 0, 1] ∧
        ∀ size, inetNtop6 [0x20, 0x01, 0x0d, 0xb8, 0, 0, 0, 0, 0, 0, 0, 0, 0, 0, 0, 1] size =
          if text.length < size then some text else none :=
  ⟨rfl, inetPton6_inetNtop6 rfl⟩

/-! ### What is accepted -/

theorem length_bytesOf (val : ℕ) : (bytesOf val).length = 2 := rfl

theorem length_store {s : Pton6} {tmp : List UInt8} (h : s.store = some tmp) :
    tmp.length ≤ 16 := by
  rw [Pton6.store] at h
  split_ifs at h with hfull
  rw [← Option.some.inj h, List.length_append, length_bytesOf]
  omega

/-- The loop does not leave `tmp`, and `colonp` is in what has been written. -/
structure Pton6.Fits (s : Pton6) : Prop where
  tmp_le : s.tmp.length ≤ 16
  colonp_le : ∀ c, s.colonp = some c → c ≤ s.tmp.length

theorem Pton6.Fits.store {s : Pton6} (h : s.Fits) {tmp : List UInt8} (hs : s.store = some tmp)
    (tok : List Char) : Pton6.Fits ⟨tmp, s.colonp, 0, 0, tok⟩ := by
  refine ⟨length_store hs, fun c hc => ?_⟩
  have hle := h.colonp_le c hc
  rw [Pton6.store] at hs
  split_ifs at hs
  rw [← Option.some.inj hs, List.length_append]
  omega

theorem Pton6.Fits.loop {src : List Char} {s s' : Pton6} (h : s.Fits)
    (hs : pton6Loop src s = some s') : s'.Fits := by
  induction src generalizing s with
  | nil => exact Option.some.inj hs ▸ h
  | cons ch src ih =>
    rw [pton6Loop] at hs
    split at hs
    · split_ifs at hs
      refine ih ?_ hs
      exact ⟨h.tmp_le, h.colonp_le⟩
    · split_ifs at hs with hcolon hseen hsome hnil hdot
      · refine ih ?_ hs
        exact ⟨h.tmp_le, fun c hc => Nat.le_of_eq (Option.some.inj hc).symm⟩
      · split at hs
        · exact absurd hs (Option.some_ne_none s').symm
        · next tmp htmp => exact ih (h.store htmp src) hs
      · obtain ⟨b, hb, rfl⟩ := Option.map_eq_some_iff.mp hs
        have hfour := (dotted_of_inetPton4 hb).1
        refine ⟨?_, fun c hc => ?_⟩
        · rw [List.length_append]
          omega
        · rw [List.length_append]
          exact Nat.le_add_right_of_le (h.colonp_le c hc)

theorem length_shiftLoop (colonp n k : ℕ) (tmp : List UInt8) :
    (shiftLoop colonp n k tmp).length = tmp.length := by
  induction k generalizing tmp with
  | zero => rfl
  | succ k ih => rw [shiftLoop, ih, List.length_set, List.length_set]

theorem length_pton6Fill {c : Option ℕ} {tmp dst : List UInt8} (htmp : tmp.length ≤ 16)
    (h : pton6Fill c tmp = some dst) : dst.length = 16 := by
  cases c with
  | none =>
    rw [pton6Fill] at h
    split_ifs at h with hfull
    rw [← Option.some.inj h]
    exact not_not.mp hfull
  | some colonp =>
    rw [pton6Fill] at h
    split_ifs at h
    rw [← Option.some.inj h, length_shiftLoop, List.length_append, List.length_replicate]
    omega

theorem length_pton6Read {src : List Char} {s : Pton6} {dst : List UInt8} (hs : s.Fits)
    (h : pton6Read src s = some dst) : dst.length = 16 := by
  obtain ⟨s', hloop, hfinish⟩ := Option.bind_eq_some_iff.mp h
  obtain ⟨tmp, htmp, hfill⟩ := Option.bind_eq_some_iff.mp hfinish
  refine length_pton6Fill ?_ hfill
  split_ifs at htmp
  · exact length_store htmp
  · exact Option.some.inj htmp ▸ (hs.loop hloop).tmp_le

theorem length_of_inetPton6 {text : List Char} {dst : List UInt8} (h : inetPton6 text = some dst) :
    dst.length = 16 := by
  have hinit : ∀ tok, Pton6.Fits ⟨[], none, 0, 0, tok⟩ := fun tok =>
    ⟨Nat.zero_le _, fun c hc => absurd hc (Option.some_ne_none c).symm⟩
  unfold inetPton6 at h
  split at h
  · exact length_pton6Read (hinit _) h
  · exact absurd h (Option.some_ne_none dst).symm
  · exact length_pton6Read (hinit _) h

/-- **Every accepted text has a printed form.** The address that `inet_pton6` gives is complete,
`inet_ntop6` prints it into a buffer of `INET6_ADDRSTRLEN` characters, and the printed text is read
as the same address. -/
theorem printed_of_inetPton6 {text : List Char} {dst : List UInt8}
    (h : inetPton6 text = some dst) :
    dst.length = 16 ∧ ∃ printed, inetNtop6 dst 46 = some printed ∧
      inetPton6 printed = inetPton6 text := by
  have hlen := length_of_inetPton6 h
  obtain ⟨printed, hprint, hle, hread⟩ := readsBack hlen
  refine ⟨hlen, printed, ?_, hread.trans h.symm⟩
  rw [inetNtop6_of_text hprint, if_pos (by omega)]

/-- `0:0::1` is accepted, and printed as `::1`. -/
theorem printed_of_inetPton6_loopback :
    inetPton6 ['0', ':', '0', ':', ':', '1'] =
        some [0, 0, 0, 0, 0, 0, 0, 0, 0, 0, 0, 0, 0, 0, 0, 1] ∧
      [(0 : UInt8), 0, 0, 0, 0, 0, 0, 0, 0, 0, 0, 0, 0, 0, 0, 1].length = 16 ∧
      ∃ printed, inetNtop6 [0, 0, 0, 0, 0, 0, 0, 0, 0, 0, 0, 0, 0, 0, 0, 1] 46 = some printed ∧
        inetPton6 printed = inetPton6 ['0', ':', '0', ':', ':', '1'] :=
  ⟨by decide, printed_of_inetPton6 (by decide)⟩

end VosStack.Inet
