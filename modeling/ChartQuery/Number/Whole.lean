/-!
# Whole numbers in words

Whole numbers have no bounds of their own. Where they are kept in words of 64 bits they have to fit,
or wrap around.

## Main definitions

* `isSignedWord`, `isUnsignedWord`: the number fits a word
* `signedWord`, `unsignedWord`: the word that a number leaves
* `total`: the sum of a list of whole numbers

## Main results

* `signedWord_of_isSignedWord`: a number that fits is left as it is
* `total_append`: the sum of a list is the sum of the sums of its parts
-/

namespace ChartQuery

/-- The whole number is a signed word of 64 bits. -/
def isSignedWord (n : Int) : Bool := -9223372036854775808 ≤ n && n < 9223372036854775808

/-- The whole number is an unsigned word of 64 bits. -/
def isUnsignedWord (n : Int) : Bool := 0 ≤ n && n < 18446744073709551616

/-- The signed word that a whole number leaves, wrapped around at 64 bits. -/
def signedWord (n : Int) : Int := n.bmod 18446744073709551616

/-- The unsigned word that a whole number leaves, wrapped around at 64 bits. -/
def unsignedWord (n : Int) : Int := n % 18446744073709551616

theorem signedWord_of_isSignedWord {n : Int} (h : isSignedWord n) : signedWord n = n := by
  simp only [isSignedWord, Bool.and_eq_true, decide_eq_true_eq] at h
  unfold signedWord
  apply Int.bmod_eq_of_le <;> omega

/-- The sum of a list of whole numbers. -/
def total (ns : List Int) : Int := ns.foldr (· + ·) 0

theorem total_append (ms ns : List Int) : total (ms ++ ns) = total ms + total ns := by
  induction ms with
  | nil => simp [total]
  | cons m ms ih =>
    simp only [total, List.cons_append, List.foldr_cons] at ih ⊢
    rw [ih, Int.add_assoc]

end ChartQuery
