import VosStack.Inet.Dotted
import VosStack.Inet.Compress

/-!
# IPv6 addresses as text

`inet_ntop6` and `inet_pton6` of libkern. An address is the list of its 16 bytes. The texts are
groups of hexadecimal digits with colons between them, where `::` may stand for a run of zeros
and the last two groups may be written as an IPv4 address.
-/

namespace VosStack.Inet

/-! ### Printing -/

/-- The `u_int words[8]` of `inet_ntop6`. -/
def words (src : List UInt8) : List ℕ :=
  (List.range 16).foldl
    (fun words i =>
      words.modify (i / 2) (· ||| ((src.getD i 0).toNat <<< ((1 - i % 2) <<< 3))))
    (List.replicate 8 0)

/-- The size of the buffer `tmp` of `inet_ntop6`. -/
def tmpSize : ℕ := 46

/-- The index is inside the run. -/
def Run.has (best : Option Run) (i : ℕ) : Bool :=
  match best with
  | none => false
  | some r => decide (r.base ≤ i ∧ i < r.base + r.len)

/-- The address is an encapsulated IPv4 address. -/
def encapsulated (words : List ℕ) (best : Option Run) : Bool :=
  match best with
  | none => false
  | some r =>
    decide (r.base = 0 ∧ (r.len = 6 ∨ r.len = 7 ∧ words.getD 7 0 ≠ 1 ∨
      r.len = 5 ∧ words.getD 5 0 = 0xffff))

/-- The loop of `inet_ntop6` that formats the result, from the word `i` on; `tmp` is the text so
far. -/
def ntop6Loop (src : List UInt8) (words : List ℕ) (best : Option Run) :
    ℕ → List ℕ → List Char → Option (List Char)
  | _, [], tmp => some tmp
  | i, w :: ws, tmp =>
    if Run.has best i then
      ntop6Loop src words best (i + 1) ws
        (if best.map Run.base = some i then tmp ++ [':'] else tmp)
    else
      let tmp := if i ≠ 0 then tmp ++ [':'] else tmp
      if i = 6 ∧ encapsulated words best then
        (inetNtop4 (src.drop 12) (tmpSize - tmp.length)).map (tmp ++ ·)
      else ntop6Loop src words best (i + 1) ws (tmp ++ formatUnsigned 16 w)

/-- The text of `inet_ntop6`. -/
def ntop6Text (src : List UInt8) : Option (List Char) :=
  let best := bestRun (words src)
  (ntop6Loop src (words src) best 0 (words src) []).map fun tmp =>
    -- a run at the end
    if best.map (fun r => r.base + r.len) = some 8 then tmp ++ [':'] else tmp

/-- `inet_ntop6`. -/
def inetNtop6 (src : List UInt8) (size : ℕ) : Option (List Char) :=
  (ntop6Text src).bind fun tmp => if size < tmp.length + 1 then none else some tmp

/-! ### Reading -/

/-- `xdigits_l`. -/
def xdigitsL : List Char :=
  ['0', '1', '2', '3', '4', '5', '6', '7', '8', '9', 'a', 'b', 'c', 'd', 'e', 'f']

/-- `xdigits_u`. -/
def xdigitsU : List Char :=
  ['0', '1', '2', '3', '4', '5', '6', '7', '8', '9', 'A', 'B', 'C', 'D', 'E', 'F']

/-- The value of a hexadecimal digit. -/
def xdigit (ch : Char) : Option ℕ := xdigitsL.idxOf? ch <|> xdigitsU.idxOf? ch

/-- The variables of `inet_pton6`: `tmp` up to `tp`, and the position of `colonp` in it. -/
structure Pton6 where
  tmp : List UInt8
  colonp : Option ℕ
  val : ℕ
  seenXdigits : ℕ
  curtok : List Char
  deriving DecidableEq, Repr

/-- The two bytes that a group of digits stands for. -/
def bytesOf (val : ℕ) : List UInt8 :=
  [UInt8.ofNat ((val >>> 8) &&& 0xff), UInt8.ofNat (val &&& 0xff)]

/-- Stores a group of digits at `tp`, which the code does at a colon and after the loop. -/
def Pton6.store (s : Pton6) : Option (List UInt8) :=
  if 16 < s.tmp.length + 2 then none else some (s.tmp ++ bytesOf s.val)

/-- The loop of `inet_pton6`. -/
def pton6Loop : List Char → Pton6 → Option Pton6
  | [], s => some s
  | ch :: src, s =>
    match xdigit ch with
    | some d =>
      if 4 < s.seenXdigits + 1 then none
      else pton6Loop src { s with val := s.val <<< 4 ||| d, seenXdigits := s.seenXdigits + 1 }
    | none =>
      if ch = ':' then
        if s.seenXdigits = 0 then
          if s.colonp.isSome then none
          else pton6Loop src { s with curtok := src, colonp := some s.tmp.length }
        else if src = [] then none
        else
          match s.store with
          | none => none
          | some tmp => pton6Loop src ⟨tmp, s.colonp, 0, 0, src⟩
      else if ch = '.' ∧ s.tmp.length + 4 ≤ 16 then
        -- the rest of the text has been read by `inet_pton4`
        (inetPton4 s.curtok).map fun b => { s with tmp := s.tmp ++ b, seenXdigits := 0 }
      else none

/-- The loop that moves the `n` bytes at `colonp` to the end of `tmp`, for the last `k` of the
indices from 1 to `n`. -/
def shiftLoop (colonp n : ℕ) : ℕ → List UInt8 → List UInt8
  | 0, tmp => tmp
  | k + 1, tmp =>
    let i := n - k
    let tmp := tmp.set (16 - i) (tmp.getD (colonp + (n - i)) 0)
    shiftLoop colonp n k (tmp.set (colonp + (n - i)) 0)

/-- Fills the place of the `::` and checks that the address is complete; the bytes of the buffer
from `tp` on are zero. -/
def pton6Fill (colonp : Option ℕ) (tmp : List UInt8) : Option (List UInt8) :=
  match colonp with
  | none => if tmp.length ≠ 16 then none else some tmp
  | some colonp =>
    let n := tmp.length - colonp
    if tmp.length = 16 then none
    else some (shiftLoop colonp n n (tmp ++ List.replicate (16 - tmp.length) 0))

/-- What `inet_pton6` does after the loop. -/
def pton6Finish (s : Pton6) : Option (List UInt8) :=
  (if s.seenXdigits ≠ 0 then s.store else some s.tmp).bind (pton6Fill s.colonp)

/-- The loop and what comes after it. -/
def pton6Read (src : List Char) (s : Pton6) : Option (List UInt8) :=
  (pton6Loop src s).bind pton6Finish

/-- `inet_pton6`: the bytes of the address, or `none` if it returns 0. A text that begins with a
colon has to begin with two. -/
def inetPton6 (src : List Char) : Option (List UInt8) :=
  match src with
  | ':' :: ':' :: src => pton6Read (':' :: src) ⟨[], none, 0, 0, ':' :: src⟩
  | ':' :: _ => none
  | src => pton6Read src ⟨[], none, 0, 0, src⟩

end VosStack.Inet
