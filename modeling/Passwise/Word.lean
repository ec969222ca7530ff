
set_option autoImplicit false

namespace Passwise.Word

def size : Nat := Nat.pow 2 64

def half : Nat := Nat.pow 2 63

def fitsSigned (n : Int) : Bool := decide (-(half : Int) ≤ n) && decide (n < half)

def fitsUnsigned (n : Int) : Bool := decide (0 ≤ n) && decide (n < size)

def fits (n : Int) : Bool := fitsSigned n || fitsUnsigned n

end Passwise.Word
