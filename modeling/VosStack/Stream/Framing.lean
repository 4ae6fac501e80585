import VosStack.Parse.Greedy
import VosStack.Stream.Base

/-!
# Framing

`OnReceive` parses what it has buffered, keeps the rest and parses it again, from its
start, when more data comes. For a prefix-stable `HandleMessage` this is the greedy parse of
the whole stream, however the data was cut into chunks.

The exception is the receive limit. It is tested against what is already buffered when a
chunk arrives, so whether a long message passes depends on how it is cut: in one chunk it
always does, in several it does not once the part received so far exceeds the limit. From
then on the stream consumes nothing (`receiveAll_of_full`), and what it has consumed is the
parse of a prefix.
-/

namespace VosStack.Stream.CFSStreamBase

open Parse

variable {α : Type*} {handleMessage : List α → ℕ}

/-! ### One chunk -/

/-- With enough fuel the loop of `OnReceive` is a greedy parse, and `totalsize` counts what
it consumed. -/
theorem handleLoop_greedy (handleMessage : List α → ℕ) (fuel : ℕ) (x : List α) (t : ℕ)
    (hfuel : x.length ≤ fuel) :
    ∃ n, (handleLoop handleMessage fuel x t).2 = t + n ∧
      Greedy handleMessage x (handleLoop handleMessage fuel x t).1 (x.drop n) := by
  induction fuel generalizing x t with
  | zero =>
    obtain rfl := List.eq_nil_of_length_eq_zero (Nat.le_zero.mp hfuel)
    exact ⟨0, rfl, .stop (not_cuts_nil _)⟩
  | succ fuel ih =>
    by_cases hc : Cuts handleMessage x
    · obtain ⟨hpos, hle⟩ := hc
      have hdrop : (x.drop (handleMessage x)).length ≤ fuel := by
        rw [List.length_drop]
        omega
      obtain ⟨n, htotal, hparse⟩ := ih _ (t + handleMessage x) hdrop
      have hgo : 0 < x.length := by omega
      have hloop : handleLoop handleMessage (fuel + 1) x t =
          (x.take (handleMessage x) ::
            (handleLoop handleMessage fuel (x.drop (handleMessage x)) (t + handleMessage x)).1,
          (handleLoop handleMessage fuel (x.drop (handleMessage x)) (t + handleMessage x)).2) := by
        rw [handleLoop, if_pos hgo, if_neg (by omega), if_neg (by omega)]
      rw [hloop]
      refine ⟨handleMessage x + n, by rw [htotal, Nat.add_assoc], .cut ⟨hpos, hle⟩ ?_⟩
      rwa [List.drop_drop] at hparse
    · have hstop : handleLoop handleMessage (fuel + 1) x t = ([], t) := by
        rw [handleLoop]
        dsimp only
        split_ifs with hgo hover hzero
        · rfl
        · rfl
        · exact absurd ⟨Nat.pos_of_ne_zero hzero, Nat.le_of_not_lt hover⟩ hc
        · rfl
      rw [hstop]
      exact ⟨0, rfl, .stop hc⟩

/-- What `OnReceive` does: nothing for an empty chunk, the flag for a chunk that comes too
late, and a greedy parse otherwise. -/
theorem onReceive_cases (handleMessage : List α → ℕ) (s : CFSStreamBase α) (c : List α) :
    c = [] ∧ s.onReceive handleMessage c = (s, []) ∨
      s.rcvBuf.length > s.rcvBufMaxLen ∧ c ≠ [] ∧
        s.onReceive handleMessage c = ({ s with rcvOverBuffer := true }, []) ∨
      ∃ ms r, s.rcvBuf.length ≤ s.rcvBufMaxLen ∧
        s.onReceive handleMessage c = ({ s with rcvBuf := r }, ms) ∧
        Greedy handleMessage (s.rcvBuf ++ c) ms r := by
  unfold onReceive
  split_ifs with hnil hfull
  · exact .inl ⟨List.eq_nil_of_length_eq_zero hnil, rfl⟩
  · exact .inr (.inl ⟨hfull, fun h => hnil (by simp [h]), rfl⟩)
  · obtain ⟨n, htotal, hparse⟩ := handleLoop_greedy handleMessage (s.rcvBuf ++ c).length
      (s.rcvBuf ++ c) 0 (Nat.le_refl _)
    rw [Nat.zero_add] at htotal
    refine .inr (.inr ⟨_, _, Nat.le_of_not_lt hfull, ?_, hparse⟩)
    rw [← htotal]

/-! ### All chunks -/

/-- A stream that has more than its limit buffered consumes nothing more. -/
theorem receiveAll_of_full (handleMessage : List α → ℕ) (cs : List (List α))
    (s : CFSStreamBase α) (hfull : s.rcvBuf.length > s.rcvBufMaxLen) :
    (receiveAll handleMessage s cs).2 = [] ∧
      (receiveAll handleMessage s cs).1.rcvBuf = s.rcvBuf ∧
      (s.rcvOverBuffer = true → (receiveAll handleMessage s cs).1.rcvOverBuffer = true) := by
  induction cs generalizing s with
  | nil => exact ⟨rfl, rfl, id⟩
  | cons c cs ih =>
    rw [receiveAll]
    rcases onReceive_cases handleMessage s c with ⟨-, h⟩ | ⟨-, -, h⟩ | ⟨ms, r, hle, -⟩
    · rw [h]
      exact ih s hfull
    · rw [h]
      obtain ⟨hms, hbuf, hover⟩ := ih { s with rcvOverBuffer := true } hfull
      exact ⟨hms, hbuf, fun _ => hover rfl⟩
    · omega

/-- **The parse of a stream.** The chunks are parsed greedily up to the point where the
limit is exceeded, and to their end if it never is. -/
theorem receiveAll_greedy (hf : PrefixStable handleMessage) (cs : List (List α))
    (s : CFSStreamBase α) (hrest : ¬Cuts handleMessage s.rcvBuf) :
    ∃ p, p <+: cs.flatten ∧
      Greedy handleMessage (s.rcvBuf ++ p) (receiveAll handleMessage s cs).2
        (receiveAll handleMessage s cs).1.rcvBuf ∧
      ((receiveAll handleMessage s cs).1.rcvOverBuffer = false → p = cs.flatten) := by
  induction cs generalizing s with
  | nil => exact ⟨[], List.prefix_rfl, by simpa [receiveAll] using .stop hrest, fun _ => rfl⟩
  | cons c cs ih =>
    rw [receiveAll]
    rcases onReceive_cases handleMessage s c with ⟨rfl, h⟩ | ⟨hfull, -, h⟩ | ⟨ms, r, -, h, hparse⟩
    · rw [h]
      exact ih s hrest
    · rw [h]
      obtain ⟨hms, hbuf, hover⟩ :=
        receiveAll_of_full handleMessage cs { s with rcvOverBuffer := true } hfull
      refine ⟨[], List.nil_prefix, ?_, fun hno => ?_⟩
      · dsimp only
        rw [hms, hbuf]
        simpa using .stop hrest
      · exact absurd ((hover rfl).symm.trans hno) nofun
    · rw [h]
      obtain ⟨p, hp, hgreedy, hall⟩ := ih { s with rcvBuf := r } hparse.not_cuts
      refine ⟨c ++ p, ?_, ?_, fun hno => by rw [hall hno, List.flatten_cons]⟩
      · rw [List.flatten_cons]
        exact (List.prefix_append_right_inj c).mpr hp
      · rw [← List.append_assoc]
        exact hparse.append hf hgreedy

/-- **Framing.** For a prefix-stable `HandleMessage` and any chunks received on one
connection: the messages are a prefix of the greedy parse of the concatenated chunks, the
consumed bytes and the buffer are a prefix of them, and as long as the overflow flag is
clear the parse is the whole one and nothing is missing. -/
theorem framing (hf : PrefixStable handleMessage) (s : CFSStreamBase α) (hs : s.rcvBuf = [])
    (cs : List (List α)) :
    (∃ ms r, Greedy handleMessage cs.flatten ms r ∧ (receiveAll handleMessage s cs).2 <+: ms) ∧
      (receiveAll handleMessage s cs).2.flatten ++ (receiveAll handleMessage s cs).1.rcvBuf <+:
        cs.flatten ∧
      ((receiveAll handleMessage s cs).1.rcvOverBuffer = false →
        (receiveAll handleMessage s cs).2.flatten ++ (receiveAll handleMessage s cs).1.rcvBuf =
            cs.flatten ∧
          Greedy handleMessage cs.flatten (receiveAll handleMessage s cs).2
            (receiveAll handleMessage s cs).1.rcvBuf) := by
  obtain ⟨p, hp, hparse, hall⟩ := receiveAll_greedy hf cs s (hs ▸ not_cuts_nil _)
  rw [hs, List.nil_append] at hparse
  refine ⟨?_, ?_, fun hno => ?_⟩
  · obtain ⟨ms, r, h⟩ := exists_greedy handleMessage cs.flatten
    obtain ⟨q, hq⟩ := hp
    exact ⟨ms, r, h, hparse.isPrefix_append hf (hq ▸ h)⟩
  · rw [hparse.flatten_append]
    exact hp
  · obtain rfl := hall hno
    exact ⟨hparse.flatten_append, hparse⟩

/-! ### Messages of a fixed length -/

/-- A `HandleMessage` for messages of `n` bytes. -/
def fixedLength (n : ℕ) (x : List α) : ℕ := if n ≤ x.length then n else 0

theorem prefixStable_fixedLength (n : ℕ) : PrefixStable (fixedLength n : List α → ℕ) := by
  rintro x y ⟨hpos, -⟩
  have hn : n ≤ x.length := by
    by_contra hne
    simp [fixedLength, hne] at hpos
  have hn' : n ≤ (x ++ y).length := by
    rw [List.length_append]
    omega
  simp only [fixedLength, if_pos hn, if_pos hn']

/-- Two messages of two bytes in three chunks, and one byte that waits. -/
theorem framing_two_messages :
    ∃ (cs : List Bytes) (s : CFSStreamBase UInt8) (ms : List Bytes),
      receiveAll (fixedLength 2) init cs = (s, ms) ∧ ms = [[1, 2], [3, 4]] ∧ s.rcvBuf = [5] ∧
        ms.flatten ++ s.rcvBuf = cs.flatten ∧ Greedy (fixedLength 2) cs.flatten ms s.rcvBuf :=
  ⟨[[1], [2, 3], [4, 5]], _, _, rfl, by decide, by decide,
    (framing (prefixStable_fixedLength 2) init rfl [[1], [2, 3], [4, 5]]).2.2 (by decide)⟩

/-! ### Independence of the chunks -/

/-- **Independence of the chunks.** Two ways of cutting the same bytes lead to the same
messages whenever neither run sets the overflow flag, whatever the receive limit. -/
theorem messages_eq_of_flatten (hf : PrefixStable handleMessage) (bufferSize : ℕ)
    (cs cs' : List (List α)) (hcs : cs.flatten = cs'.flatten)
    (h : (receiveAll handleMessage (init.setRcvBufferSize bufferSize) cs).1.rcvOverBuffer = false)
    (h' : (receiveAll handleMessage (init.setRcvBufferSize bufferSize) cs').1.rcvOverBuffer =
      false) :
    (receiveAll handleMessage (init.setRcvBufferSize bufferSize) cs).2 =
      (receiveAll handleMessage (init.setRcvBufferSize bufferSize) cs').2 := by
  obtain ⟨p, -, hparse, hall⟩ := receiveAll_greedy hf cs (init.setRcvBufferSize bufferSize)
    (not_cuts_nil _)
  obtain ⟨p', -, hparse', hall'⟩ := receiveAll_greedy hf cs' (init.setRcvBufferSize bufferSize)
    (not_cuts_nil _)
  obtain rfl : p = p' := by rw [hall h, hall' h', hcs]
  exact (hparse.unique hparse').1

/-- A message of five bytes in two pieces and byte by byte, with the largest limit. -/
theorem messages_eq_of_flatten_five_bytes :
    (receiveAll (fixedLength 5) (init.setRcvBufferSize 40000) [[1, 2, 3], [4, 5]]).2 =
      (receiveAll (fixedLength 5) (init.setRcvBufferSize 40000)
        [[1], [2], [3], [4], [(5 : UInt8)]]).2 :=
  messages_eq_of_flatten (prefixStable_fixedLength 5) 40000 [[1, 2, 3], [4, 5]]
    [[1], [2], [3], [4], [5]] rfl (by decide) (by decide)

/-- **The limit depends on the chunks.** With a receive limit of two bytes a message of
five passes in one chunk; when three of its bytes come first, the others are dropped. -/
theorem messages_ne_of_overflow :
    PrefixStable (fixedLength 5 : List UInt8 → ℕ) ∧
      [[1, 2, 3], [4], [5]].flatten = [[1, 2, 3, 4, (5 : UInt8)]].flatten ∧
      (receiveAll (fixedLength 5) (init.setRcvBufferSize 2) [[1, 2, 3, 4, (5 : UInt8)]]).2 =
        [[1, 2, 3, 4, 5]] ∧
      (receiveAll (fixedLength 5) (init.setRcvBufferSize 2) [[1, 2, 3], [4], [(5 : UInt8)]]).2 =
        [] :=
  ⟨prefixStable_fixedLength 5, rfl, by decide, by decide⟩

end VosStack.Stream.CFSStreamBase
