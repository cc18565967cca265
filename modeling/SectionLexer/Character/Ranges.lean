/-! Character classes kept as ascending ranges of code points. -/
namespace SectionLexer

/-- Whether `n` lies in one of the ranges. The ranges ascend, so the search ends at the first that
starts above `n`. -/
def inRanges : List (Nat × Nat) → Nat → Bool
  | [], _ => false
  | (low, high) :: ranges, n => low ≤ n && (n ≤ high || inRanges ranges n)

end SectionLexer
