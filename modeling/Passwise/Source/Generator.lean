import Passwise.Scalar.Numeral
import Passwise.Source.Dataset

set_option autoImplicit false

namespace Passwise.Generator

def mix (word : UInt64) : UInt64 :=
  let a := (word ^^^ (word >>> 30)) * 0xBF58476D1CE4E5B9
  let b := (a ^^^ (a >>> 27)) * 0x94D049BB133111EB
  b ^^^ (b >>> 31)

def word (seed : Int) (purpose position : Nat) : UInt64 :=
  let start := mix (UInt64.ofNat (Int.toNat (seed % (Nat.pow 2 64 : Nat))) + UInt64.ofNat purpose)
  mix (start + UInt64.ofNat (position + 1) * 0x9E3779B97F4A7C15)

def uniform (seed : Int) (purpose position : Nat) : Float :=
  Float.ofNat ((word seed purpose position).toNat / Nat.pow 2 11) / Float.ofNat (Nat.pow 2 53)

def normal (seed : Int) (purpose position : Nat) : Float :=
  let radius := Float.sqrt (-2 * Float.log (1 - uniform seed purpose (2 * position)))
  radius * Float.cos (6.283185307179586 * uniform seed purpose (2 * position + 1))

def draws (seed : Int) : Draws Numeral :=
  ⟨fun i => .real (normal seed 0 i), fun i => .real (uniform seed 1 i)⟩

def shuffle (seed : Int) (size count : Nat) : List Nat :=
  let keys := (List.range size).map fun i => (word seed (count + 2) i, i)
  (keys.mergeSort fun a b => a.1 ≤ b.1).map (·.2)

end Passwise.Generator
