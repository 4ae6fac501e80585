import VosStack.Inet.Presentation

/-!
# What `inet_ntop6` prints

The loop of `inet_ntop6` goes by the index of a word: it leaves out the words of the run, and
breaks at the word 6 of an encapsulated IPv4 address. Here its text is given without indices, in
each of the three forms: `ntop6Text_of_none`, `ntop6Text_of_run` and `ntop6Text_of_encapsulated`.
-/

namespace VosStack.Inet

open Text

/-! ### The words of an address -/

theorem words_eq (src : List UInt8) :
    words src = (List.range 8).map fun j =>
      (src.getD (2 * j) 0).toNat * 256 + (src.getD (2 * j + 1) 0).toNat := by
  have hor : ∀ a b : UInt8, 0 ||| a.toNat <<< 8 ||| b.toNat <<< 0 = a.toNat * 256 + b.toNat := by
    intro a b
    rw [Nat.zero_or, Nat.shiftLeft_zero, ← Nat.shiftLeft_add_eq_or_of_lt b.toNat_lt,
      Nat.shiftLeft_eq]
  simp only [← hor]
  rfl

theorem length_words (src : List UInt8) : (words src).length = 8 := by
  rw [words_eq, List.length_map, List.length_range]

theorem lt_of_mem_words {src : List UInt8} {w : ℕ} (h : w ∈ words src) : w < 65536 := by
  rw [words_eq, List.mem_map] at h
  obtain ⟨j, -, rfl⟩ := h
  have ha := (src.getD (2 * j) 0).toNat_lt
  have hb := (src.getD (2 * j + 1) 0).toNat_lt
  omega

theorem bytesOf_word (a b : UInt8) : bytesOf (a.toNat * 256 + b.toNat) = [a, b] := by
  have hb := b.toNat_lt
  have ha := a.toNat_lt
  have hmask : ∀ n, n &&& 0xff = n % 2 ^ 8 := fun n => Nat.and_two_pow_sub_one_eq_mod n 8
  have hhigh : (a.toNat * 256 + b.toNat) / 2 ^ 8 % 2 ^ 8 = a.toNat := by omega
  have hlow : (a.toNat * 256 + b.toNat) % 2 ^ 8 = b.toNat := by omega
  rw [bytesOf, hmask, hmask, Nat.shiftRight_eq_div_pow, hhigh, hlow, UInt8.ofNat_toNat,
    UInt8.ofNat_toNat]

/-- The bytes of the words are the bytes of the address. -/
theorem flatMap_words {src : List UInt8} (h : src.length = 16) :
    (words src).flatMap bytesOf = src := by
  have hpairs : (words src).flatMap bytesOf =
      (List.range 8).flatMap fun j => [src.getD (2 * j) 0, src.getD (2 * j + 1) 0] := by
    rw [words_eq, List.flatMap_map]
    simp only [bytesOf_word]
  rw [hpairs]
  match src, h with
  | [_, _, _, _, _, _, _, _, _, _, _, _, _, _, _, _], _ => rfl

theorem length_flatMap_bytesOf (ws : List ℕ) : (ws.flatMap bytesOf).length = 2 * ws.length := by
  induction ws with
  | nil => rfl
  | cons w ws ih =>
    rw [List.flatMap_cons, List.length_append, ih, List.length_cons]
    change 2 + 2 * ws.length = 2 * (ws.length + 1)
    omega

theorem flatMap_bytesOf_zeros (n : ℕ) :
    (List.replicate n 0).flatMap bytesOf = List.replicate (2 * n) 0 := by
  induction n with
  | zero => rfl
  | succ n ih =>
    rw [List.replicate_succ, List.flatMap_cons, ih]
    rfl

/-- The last four bytes. -/
theorem flatMap_drop_words {src : List UInt8} (h : src.length = 16) :
    ((words src).drop 6).flatMap bytesOf = src.drop 12 := by
  have hsplit : ((words src).take 6).flatMap bytesOf ++ ((words src).drop 6).flatMap bytesOf =
      src := by
    rw [← List.flatMap_append, List.take_append_drop, flatMap_words h]
  have hlen : (((words src).take 6).flatMap bytesOf).length = 12 := by
    rw [length_flatMap_bytesOf, List.length_take, length_words]
    rfl
  rw [← hlen]
  nth_rewrite 3 [← hsplit]
  rw [List.drop_left]

/-- The words around a run of zeros. -/
theorem Run.Zeros.split {r : Run} {ws : List ℕ} (h : r.Zeros ws) :
    ws.take r.base ++ (List.replicate r.len 0 ++ ws.drop (r.base + r.len)) = ws := by
  have hend := h.end_le
  refine List.ext_getElem? fun i => ?_
  rcases Nat.lt_or_ge i r.base with hlt | hge
  · rw [List.getElem?_append_left (by rw [List.length_take]; omega), List.getElem?_take_of_lt hlt]
  · have hbase : (ws.take r.base).length = r.base := by
      rw [List.length_take]
      omega
    rw [List.getElem?_append_right (hbase.symm ▸ hge), hbase]
    rcases Nat.lt_or_ge i (r.base + r.len) with hin | hout
    · rw [List.getElem?_append_left (by rw [List.length_replicate]; omega),
        List.getElem?_replicate_of_lt (by omega), h.zero i hge hin]
    · rw [List.getElem?_append_right (by rw [List.length_replicate]; omega),
        List.length_replicate, List.getElem?_drop]
      congr 1
      omega

/-! ### The printed text -/

/-- Groups of hexadecimal digits, each with a colon before it. -/
def colonGroups (ws : List ℕ) : List Char := ws.flatMap fun w => ':' :: formatUnsigned 16 w

/-- Groups of hexadecimal digits with colons between them. -/
def groups : List ℕ → List Char
  | [] => []
  | w :: ws => formatUnsigned 16 w ++ colonGroups ws

/-- Groups begin with a digit. -/
theorem groups_eq_cons {ws : List ℕ} (h : ws ≠ []) : ∃ ch r, groups ws = ch :: r ∧ ch ≠ ':' := by
  obtain ⟨w, ws', rfl⟩ := List.exists_cons_of_ne_nil h
  obtain ⟨d, ds, hds⟩ := List.exists_cons_of_ne_nil (numeral_ne_nil (by decide : 2 ≤ 16) w)
  have hd : d < 16 := lt_of_mem_numeral (by decide) (hds ▸ List.mem_cons_self)
  have hcolon : ∀ d, d < 16 → hex2ascii d ≠ ':' := by decide
  refine ⟨hex2ascii d, ds.map hex2ascii ++ colonGroups ws', ?_, hcolon d hd⟩
  rw [groups, formatUnsigned_eq (by decide), hds]
  rfl

theorem groups_ne_nil {ws : List ℕ} (h : ws ≠ []) : groups ws ≠ [] := by
  obtain ⟨ch, r, hgroups, -⟩ := groups_eq_cons h
  rw [hgroups]
  exact List.cons_ne_nil ch r

theorem colonGroups_eq {ws : List ℕ} (h : ws ≠ []) : colonGroups ws = ':' :: groups ws := by
  cases ws with
  | nil => exact absurd rfl h
  | cons w ws => rfl

section Printing

variable {src : List UInt8} {best : Option Run} {i : ℕ} {ws ws' : List ℕ} {tmp : List Char}

/-- Words outside the run, behind the first one. -/
theorem ntop6Loop_groups (hi : i ≠ 0)
    (hout : ∀ j, i ≤ j → j < i + ws.length → Run.has best j = false)
    (hplain : ∀ j, i ≤ j → j < i + ws.length → ¬ (j = 6 ∧ encapsulated (words src) best = true)) :
    ntop6Loop src (words src) best i (ws ++ ws') tmp =
      ntop6Loop src (words src) best (i + ws.length) ws' (tmp ++ colonGroups ws) := by
  induction ws generalizing i tmp with
  | nil => rw [List.nil_append, colonGroups, List.flatMap_nil, List.append_nil]; rfl
  | cons w ws ih =>
    have hlen : i + (w :: ws).length = i + 1 + ws.length := by
      rw [List.length_cons]
      omega
    rw [hlen] at hout hplain ⊢
    rw [List.cons_append, ntop6Loop, hout i (Nat.le_refl i) (by omega)]
    simp only [Bool.false_eq_true, if_false]
    rw [if_neg (hplain i (Nat.le_refl i) (by omega)), if_pos hi,
      ih (by omega) (fun j hj => hout j (by omega)) (fun j hj => hplain j (by omega))]
    simp only [colonGroups, List.flatMap_cons, List.append_assoc, List.cons_append,
      List.nil_append]

/-- The words behind the run. -/
theorem ntop6Loop_rest (hi : i ≠ 0)
    (hout : ∀ j, i ≤ j → j < i + ws.length → Run.has best j = false)
    (hplain : ∀ j, i ≤ j → j < i + ws.length → ¬ (j = 6 ∧ encapsulated (words src) best = true)) :
    ntop6Loop src (words src) best i ws tmp = some (tmp ++ colonGroups ws) := by
  calc ntop6Loop src (words src) best i ws tmp
      = ntop6Loop src (words src) best i (ws ++ []) tmp := by rw [List.append_nil]
    _ = ntop6Loop src (words src) best (i + ws.length) [] (tmp ++ colonGroups ws) :=
      ntop6Loop_groups hi hout hplain
    _ = some (tmp ++ colonGroups ws) := by rw [ntop6Loop]

/-- The words up to the run, or all of them. -/
theorem ntop6Loop_first (hout : ∀ j, j < ws.length → Run.has best j = false)
    (hplain : ∀ j, j < ws.length → ¬ (j = 6 ∧ encapsulated (words src) best = true)) :
    ntop6Loop src (words src) best 0 (ws ++ ws') [] =
      ntop6Loop src (words src) best ws.length ws' (groups ws) := by
  cases ws with
  | nil => rfl
  | cons w ws =>
    rw [List.length_cons] at hout hplain ⊢
    rw [List.cons_append, ntop6Loop, hout 0 (by omega)]
    simp only [Bool.false_eq_true, if_false, ne_eq, not_true_eq_false]
    rw [if_neg (hplain 0 (by omega)), ntop6Loop_groups (by decide)
      (fun j _ hj => hout j (by omega)) (fun j _ hj => hplain j (by omega)), Nat.zero_add,
      Nat.add_comm 1 ws.length]
    rfl

/-- The rest of the run prints nothing. -/
theorem ntop6Loop_inside {r : Run} (hi : r.base < i) (hlen : i + ws.length = r.base + r.len) :
    ntop6Loop src (words src) (some r) i (ws ++ ws') tmp =
      ntop6Loop src (words src) (some r) (r.base + r.len) ws' tmp := by
  induction ws generalizing i with
  | nil =>
    rw [← hlen]
    rfl
  | cons w ws ih =>
    rw [List.length_cons] at hlen
    have hin : Run.has (some r) i = true := decide_eq_true ⟨Nat.le_of_lt hi, by omega⟩
    have hne : (some r).map Run.base ≠ some i := by
      rw [Option.map_some, ne_eq, Option.some.injEq]
      omega
    rw [List.cons_append, ntop6Loop, if_pos hin, if_neg hne]
    exact ih (by omega) (by omega)

/-- The run prints one colon. -/
theorem ntop6Loop_run {r : Run} (hlen : ws.length = r.len) (hpos : 0 < r.len) :
    ntop6Loop src (words src) (some r) r.base (ws ++ ws') tmp =
      ntop6Loop src (words src) (some r) (r.base + r.len) ws' (tmp ++ [':']) := by
  cases ws with
  | nil =>
    rw [List.length_nil] at hlen
    omega
  | cons w ws =>
    rw [List.length_cons] at hlen
    have hin : Run.has (some r) r.base = true := decide_eq_true ⟨Nat.le_refl _, by omega⟩
    rw [List.cons_append, ntop6Loop, if_pos hin, Option.map_some, if_pos rfl]
    exact ntop6Loop_inside (Nat.lt_succ_self _) (by omega)

end Printing

section Forms

variable {src : List UInt8} {r : Run}

/-- Without a run all words are printed. -/
theorem ntop6Text_of_none (h : bestRun (words src) = none) :
    ntop6Text src = some (groups (words src)) := by
  have hloop : ntop6Loop src (words src) none 0 (words src ++ []) [] =
      ntop6Loop src (words src) none (words src).length [] (groups (words src)) :=
    ntop6Loop_first (fun _ _ => rfl) (fun _ _ hcontra => Bool.false_ne_true hcontra.2)
  rw [List.append_nil] at hloop
  rw [ntop6Text, h, hloop]
  rfl

/-- The loop up to the end of the run. -/
theorem ntop6Loop_of_run (hr : r.Zeros (words src)) :
    ntop6Loop src (words src) (some r) 0 (words src) [] =
      ntop6Loop src (words src) (some r) (r.base + r.len) ((words src).drop (r.base + r.len))
        (groups ((words src).take r.base) ++ [':']) := by
  have hend := hr.end_le
  have hbase : ((words src).take r.base).length = r.base := by
    rw [List.length_take]
    omega
  nth_rewrite 2 [← hr.split]
  rw [ntop6Loop_first, hbase]
  · exact ntop6Loop_run List.length_replicate hr.len_pos
  · intro j hj
    exact decide_eq_false fun hin => by omega
  · rintro j hj ⟨rfl, henc⟩
    -- only an address that begins with the run is encapsulated
    have hzero := (of_decide_eq_true henc).1
    omega

/-- The words behind the run are printed as groups if the loop does not come to an encapsulated
address. -/
theorem ntop6Text_of_run (h : bestRun (words src) = some r)
    (hplain : encapsulated (words src) (some r) = true → 6 < r.base + r.len) :
    ntop6Text src = some (groups ((words src).take r.base) ++ ':' :: ':' ::
      groups ((words src).drop (r.base + r.len))) := by
  obtain ⟨hr, -⟩ := zeros_bestRun h
  have hend := hr.end_le
  have hpos := hr.len_pos
  have hout : ∀ j, r.base + r.len ≤ j →
      j < r.base + r.len + ((words src).drop (r.base + r.len)).length →
      Run.has (some r) j = false := fun j hj _ => decide_eq_false fun hin => by omega
  rw [ntop6Text, h, ntop6Loop_of_run hr, ntop6Loop_rest (by omega) hout, Option.map_some,
    Option.map_some]
  swap
  · rintro j hj - ⟨rfl, henc⟩
    exact absurd (hplain henc) (by omega)
  rw [length_words] at hend
  by_cases htail : r.base + r.len = 8
  · have hnil : (words src).drop (r.base + r.len) = [] := by
      rw [htail, List.drop_eq_nil_iff, length_words]
    rw [if_pos (congrArg some htail), hnil]
    simp [colonGroups, groups]
  · have hne : (words src).drop (r.base + r.len) ≠ [] := by
      rw [ne_eq, List.drop_eq_nil_iff, length_words]
      omega
    rw [if_neg (fun heq => htail (Option.some.inj heq)), colonGroups_eq hne]
    simp

/-- An encapsulated address: the words behind the run up to the last two, then these as an IPv4
address. -/
theorem ntop6Text_of_encapsulated (h : bestRun (words src) = some r)
    (henc : encapsulated (words src) (some r) = true) (hle : r.base + r.len ≤ 6) :
    ntop6Text src = some (':' :: ':' ::
      ((((words src).drop r.len).take (6 - r.len)).flatMap (formatUnsigned 16 · ++ [':']) ++
        dotted (src.drop 12))) := by
  obtain ⟨hr, -⟩ := zeros_bestRun h
  obtain ⟨hbase, hlen⟩ := of_decide_eq_true henc
  have hwords := length_words src
  have hdotted := length_dotted (src.drop 12)
  obtain ⟨x, y, hlast⟩ : ∃ x y, (words src).drop 6 = [x, y] := by
    rw [← List.length_eq_two, List.length_drop, hwords]
  -- the turn of the loop for the word 6
  have hsix : ∀ tmp : List Char, tmp.length ≤ 6 →
      ntop6Loop src (words src) (some r) 6 [x, y] tmp =
        some (tmp ++ ':' :: dotted (src.drop 12)) := by
    intro tmp htmp
    have hout : Run.has (some r) 6 = false := decide_eq_false fun hin => by omega
    have hfit : (dotted (src.drop 12)).length < tmpSize - (tmp ++ [':']).length := by
      rw [tmpSize, List.length_append, List.length_singleton]
      omega
    rw [ntop6Loop, hout]
    simp only [Bool.false_eq_true, if_false]
    rw [if_pos ⟨trivial, henc⟩, if_pos (by decide), inetNtop4_of_lt hfit, Option.map_some,
      List.append_assoc]
    rfl
  have hend : (some r).map (fun r => r.base + r.len) ≠ some 8 := by
    rw [Option.map_some, ne_eq, Option.some.injEq]
    omega
  rw [ntop6Text, h, ntop6Loop_of_run hr, hbase, Nat.zero_add, List.take_zero]
  rcases hlen with hsixZeros | ⟨hseven, -⟩ | ⟨hfive, hmapped⟩
  · rw [hsixZeros, hlast, hsix _ (by decide), Option.map_some, if_neg hend]
    rfl
  · omega
  · have hdrop : (words src).drop 5 = [0xffff] ++ [x, y] := by
      have hget : (words src)[5] = 0xffff := by simpa [List.getD, hwords] using hmapped
      rw [List.drop_eq_getElem_cons (by omega), hget, hlast]
      rfl
    have hgroup : ntop6Loop src (words src) (some r) 5 ([0xffff] ++ [x, y]) [':'] =
        ntop6Loop src (words src) (some r) 6 [x, y] ([':'] ++ colonGroups [0xffff]) :=
      ntop6Loop_groups (by decide) (fun j hj _ => decide_eq_false fun hin => by omega)
        (by rintro j - hlt ⟨rfl, -⟩; exact absurd hlt (by decide))
    rw [hfive, hdrop]
    change Option.map _ (ntop6Loop src (words src) (some r) 5 ([0xffff] ++ [x, y]) [':']) = _
    rw [hgroup, hsix _ (by decide), Option.map_some, if_neg hend]
    simp [colonGroups]

end Forms

/-! ### Its length -/

theorem length_colonGroups_le {ws : List ℕ} (hws : ∀ w ∈ ws, w < 65536) :
    (colonGroups ws).length ≤ 5 * ws.length := by
  induction ws with
  | nil => exact Nat.zero_le _
  | cons w ws ih =>
    have hw : (formatUnsigned 16 w).length ≤ 3 + 1 :=
      length_formatUnsigned_le (by decide) (hws w List.mem_cons_self)
    have hrest := ih fun w hw => hws w (List.mem_cons_of_mem _ hw)
    rw [colonGroups, List.flatMap_cons, List.length_append, List.length_cons, List.length_cons]
    change _ + (colonGroups ws).length ≤ _
    omega

theorem length_flatMap_closed (ws : List ℕ) :
    (ws.flatMap (formatUnsigned 16 · ++ [':'])).length = (colonGroups ws).length := by
  simp [colonGroups, List.length_flatMap]

theorem length_groups_le {ws : List ℕ} (hws : ∀ w ∈ ws, w < 65536) :
    (groups ws).length ≤ 5 * ws.length - 1 := by
  by_cases hnil : ws = []
  · rw [hnil]
    exact Nat.zero_le _
  · have hlen := length_colonGroups_le hws
    rw [colonGroups_eq hnil, List.length_cons] at hlen
    omega

end VosStack.Inet
