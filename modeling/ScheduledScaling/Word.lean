/-!
The bounds of whole numbers in words of a fixed number of bits. A word without a sign holds the
numbers below its bound, a word with a sign those from its low to its high end.
-/
namespace ScheduledScaling.Word

def bound16 : Nat := 65536

def bound32 : Nat := 4294967296

def bound64 : Nat := 18446744073709551616

def bound128 : Nat := 340282366920938463463374607431768211456

def low32 : Int := -2147483648

def high32 : Int := 2147483647

def low64 : Int := -9223372036854775808

def high64 : Int := 9223372036854775807

def low128 : Int := -170141183460469231731687303715884105728

/-- Whether a number fits a word of 32 bits with a sign. -/
def fits32 (n : Int) : Bool := low32 ≤ n && n ≤ high32

/-- Whether a number fits a word of 64 bits with a sign. -/
def fits64 (n : Int) : Bool := low64 ≤ n && n ≤ high64

end ScheduledScaling.Word
