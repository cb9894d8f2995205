/-! # Similar words

Two words are compared by their Jaro similarity, from zero to one. Characters match if they are equal
and not too far apart, and each character matches at most once; matching characters in another order
count half. -/

namespace JsonSelect.Text

/-- The place of the first `true` of `allowed` at which `cs` has the character `c`. -/
def firstMatch? (c : Char) (cs : List Char) (allowed : List Bool) : Option Nat :=
  (cs.zip allowed).findIdx? fun (d, free) => free && c == d

/-- The matches of the characters `cs`, the first of which is at `place`, with those of `other`: for
each the place of its match, if it has one. Places in `used` are taken, and places further away than
`range` do not match. -/
def matchPlaces (range : Nat) (other : List Char) (place : Nat) (used : List Nat) :
    List Char → List (Option Nat)
  | [] => []
  | c :: cs =>
    let allowed := (List.range other.length).map fun j =>
      !used.contains j && place ≤ j + range && j ≤ place + range
    match firstMatch? c other allowed with
    | some j => some j :: matchPlaces range other (place + 1) (j :: used) cs
    | none => none :: matchPlaces range other (place + 1) used cs

/-- The Jaro similarity of two words. -/
def similarity (a b : List Char) : Float :=
  if a.isEmpty && b.isEmpty then 1
  else
    let places := matchPlaces (max a.length b.length / 2 - 1) b 0 [] a
    let matched := places.filterMap id
    let inA := (a.zip places).filterMap fun (c, place) => place.map fun _ => c
    let inB := (b.zipIdx.filter fun (_, j) => matched.contains j).map (·.1)
    let moved := ((inA.zip inB).countP fun (c, d) => c != d) / 2
    if matched.isEmpty then 0
    else
      let m := matched.length.toFloat
      (m / a.length.toFloat + m / b.length.toFloat + (matched.length - moved).toFloat / m) / 3

/-- Puts a word in its place among words in ascending order of similarity, behind equally similar
ones. -/
def insertBySimilarity (entry : Float × String) : List (Float × String) → List (Float × String)
  | [] => [entry]
  | e :: es => if entry.1 < e.1 then entry :: e :: es else e :: insertBySimilarity entry es

/-- The candidates that are similar to a word, the most similar one last. -/
def similarWords (word : String) (candidates : List String) : List String :=
  let rated := candidates.map fun c => (similarity word.toList c.toList, c)
  let similar := rated.filter fun (s, _) => 0.7 < s
  (similar.foldl (fun es e => insertBySimilarity e es) []).map (·.2)

/-- The candidate that is most similar to a word, if one is similar at all. -/
def mostSimilar? (word : String) (candidates : List String) : Option String :=
  (similarWords word candidates).getLast?

end JsonSelect.Text
