/-!
# Powers

Powers of the two bases that numbers are kept and written in.
-/

namespace WireModel

/-- The power of two with an exponent. -/
def twoPow (n : Nat) : Nat := Nat.pow 2 n

/-- The power of ten with an exponent. -/
def tenPow (n : Nat) : Nat := Nat.pow 10 n

end WireModel
