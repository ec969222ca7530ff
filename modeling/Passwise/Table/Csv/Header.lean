
set_option autoImplicit false

namespace Passwise.Csv

def freeNumber (names : List String) (name : String) : Nat → Nat → Nat
  | 0, number => number
  | tries + 1, number =>
    if names.contains s!"{name}.{number}" then freeNumber names name tries (number + 1) else number

structure Naming where
  names : List String
  counts : List (String × Nat)

def Naming.settle (n : Naming) (i : Nat) : Naming :=
  let name := n.names[i]?.getD ""
  match n.counts.lookup name with
  | none => { n with counts := (name, 1) :: n.counts }
  | some next =>
    let number := freeNumber n.names name n.names.length next
    let numbered := s!"{name}.{number}"
    ⟨n.names.set i numbered, (numbered, 1) :: (name, number + 1) :: n.counts⟩

def distinctNames (header : List String) : List String :=
  let positions := List.range header.length
  let isEmpty (i : Nat) : Bool := (header[i]?.getD "").isEmpty
  let order := positions.filter (!isEmpty ·) ++ positions.filter isEmpty
  let named := header.zipIdx.map fun (name, i) => if name.isEmpty then s!"Unnamed: {i}" else name
  (order.foldl Naming.settle ⟨named, []⟩).names

end Passwise.Csv
