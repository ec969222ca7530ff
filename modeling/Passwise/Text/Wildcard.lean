
set_option autoImplicit false

namespace Passwise.Text

structure CharSet where
  negated : Bool
  ranges : List (Char × Char)
  deriving DecidableEq, Repr

def CharSet.holds (set : CharSet) (c : Char) : Bool :=
  (set.ranges.any fun (low, high) => low ≤ c && c ≤ high) != set.negated

inductive Wildcard where
  | character (c : Char)
  | anyOne
  | anyMany
  | oneOf (set : CharSet)
  deriving DecidableEq, Repr

def rangesOf : List Char → List (Char × Char)
  | low :: '-' :: high :: rest => (low, high) :: rangesOf rest
  | c :: rest => (c, c) :: rangesOf rest
  | [] => []

def bracketed? (cs : List Char) : Option (CharSet × List Char) :=
  let (negated, body) := match cs with
    | '!' :: rest => (true, rest)
    | rest => (false, rest)
  let (first, rest) := match body with
    | ']' :: rest => ([']'], rest)
    | rest => ([], rest)
  match rest.dropWhile (· != ']') with
  | [] => none
  | _ :: after => some (⟨negated, rangesOf (first ++ rest.takeWhile (· != ']'))⟩, after)

def patternOf (pattern : String) : List Wildcard :=
  go pattern.toList.length pattern.toList
where
  go : Nat → List Char → List Wildcard
    | 0, _ => []
    | _, [] => []
    | fuel + 1, '*' :: rest => .anyMany :: go fuel rest
    | fuel + 1, '?' :: rest => .anyOne :: go fuel rest
    | fuel + 1, '[' :: rest =>
      match bracketed? rest with
      | some (set, after) => .oneOf set :: go fuel after
      | none => .character '[' :: go fuel rest
    | fuel + 1, c :: rest => .character c :: go fuel rest

def Wildcard.holds : Wildcard → Char → Bool
  | character c, d => c == d
  | anyOne, _ => true
  | anyMany, _ => true
  | oneOf set, d => set.holds d

def matchesAll : List Wildcard → List Char → Bool
  | [], cs => cs.isEmpty
  | .anyMany :: rest, cs => (List.range (cs.length + 1)).any fun n => matchesAll rest (cs.drop n)
  | _ :: _, [] => false
  | w :: rest, c :: cs => w.holds c && matchesAll rest cs

def matchesPattern (pattern name : String) : Bool := matchesAll (patternOf pattern) name.toList

end Passwise.Text
