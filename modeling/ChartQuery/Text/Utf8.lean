/-!
# Reading the UTF-8 form of a text

Bytes are read as the characters whose encodings they are. Where they are none, as many of them as
could begin an encoding stand together for one replacement character.

## Main definitions

* `Text.ofUtf8`: the characters that bytes stand for
* `Text.toUtf8`, `Text.byteChars`: the bytes of a character and of a text

## Main results

* `Text.byteChars_ascii`: bytes below 128 stand for the characters of their codes
-/

namespace ChartQuery.Text

/-- What stands for bytes that are no encoding. -/
def replacement : Char := Char.ofNat 0xFFFD

/-- The bits that the first byte of an encoding gives, and the ranges of the bytes that follow it.
-/
def firstByte? (b : Nat) : Option (Nat × List (Nat × Nat)) :=
  let next := (0x80, 0xBF)
  if b < 0x80 then some (b, [])
  else if 0xC2 ≤ b && b ≤ 0xDF then some (b - 0xC0, [next])
  else if b = 0xE0 then some (0, [(0xA0, 0xBF), next])
  else if b = 0xED then some (0xD, [(0x80, 0x9F), next])
  else if 0xE1 ≤ b && b ≤ 0xEF then some (b - 0xE0, [next, next])
  else if b = 0xF0 then some (0, [(0x90, 0xBF), next, next])
  else if 0xF1 ≤ b && b ≤ 0xF3 then some (b - 0xF0, [next, next, next])
  else if b = 0xF4 then some (4, [(0x80, 0x8F), next, next])
  else none

/-- The code of a character from the bits read so far and the bytes that follow, none if one of them
is out of its range; and the bytes left. -/
def nextBytes (n : Nat) : List (Nat × Nat) → List Nat → Option Nat × List Nat
  | [], bs => (some n, bs)
  | _ :: _, [] => (none, [])
  | (low, high) :: ranges, b :: bs =>
    if low ≤ b && b ≤ high then nextBytes (n * 64 + (b - 0x80)) ranges bs else (none, b :: bs)

/-- Nothing is added to the bytes left. -/
theorem length_nextBytes (n : Nat) (ranges : List (Nat × Nat)) (bs : List Nat) :
    (nextBytes n ranges bs).2.length ≤ bs.length := by
  fun_induction nextBytes n ranges bs with
  | case1 => simp
  | case2 => simp
  | case3 _ _ _ _ _ _ _ ih => exact Nat.le_trans ih (Nat.le_succ _)
  | case4 => simp

/-- The characters that bytes stand for. -/
def ofUtf8 : List Nat → List Char
  | [] => []
  | b :: bs =>
    match firstByte? b with
    | none => replacement :: ofUtf8 bs
    | some (n, ranges) =>
      ((nextBytes n ranges bs).1.map Char.ofNat).getD replacement ::
        ofUtf8 (nextBytes n ranges bs).2
termination_by bs => bs.length
decreasing_by
  · exact Nat.lt_succ_self _
  · exact Nat.lt_succ_of_le (length_nextBytes n ranges bs)

/-- The bytes of a character. -/
def toUtf8 (c : Char) : List Nat := (String.utf8EncodeChar c).map UInt8.toNat

/-- The bytes of a text, each as the character of its code. -/
def byteChars (s : String) : List Char :=
  s.toList.flatMap fun c => if c.toNat < 0x80 then [c] else (toUtf8 c).map Char.ofNat

/-- The byte follows the first byte of an encoding. -/
def isContinuation (c : Char) : Bool := 0x80 ≤ c.toNat && c.toNat ≤ 0xBF

/-- The bytes of an ASCII text are its characters. -/
theorem byteChars_ascii {s : String} (h : ∀ c ∈ s.toList, c.toNat < 0x80) :
    byteChars s = s.toList := by
  have hc : ∀ cs : List Char, (∀ c ∈ cs, c.toNat < 0x80) →
      (cs.flatMap fun c => if c.toNat < 0x80 then [c] else (toUtf8 c).map Char.ofNat) = cs := by
    intro cs
    induction cs with
    | nil => intro _; rfl
    | cons c cs ih =>
      intro h
      rw [List.flatMap_cons, ih fun d hd => h d (List.mem_cons_of_mem _ hd)]
      simp [h c (by simp)]
  exact hc s.toList h

end ChartQuery.Text
