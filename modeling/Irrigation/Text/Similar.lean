/-!
# Similar words

`similarity` measures how much two words have in common, from 0 to 1: characters that occur in
both at places not too far apart are partners, and it counts how many there are and how many of
them are out of order. `similarTo` picks words that a misspelt one may stand for.
-/

namespace Irrigation.Text

/-- The partner of the character at place `i`: the first equal character of the other word that
is at most `reach` away and not yet `taken`. -/
def partner? (word : List Char) (reach i : Nat) (taken : List Nat) (c : Char) : Option Nat :=
  (List.range word.length).find? fun j =>
    i ≤ j + reach && j ≤ i + reach && word[j]? == some c && !taken.contains j

/-- The characters that have a partner, each with the place of the partner. -/
def partners (word : List Char) (reach : Nat) : Nat → List Nat → List Char → List (Char × Nat)
  | _, _, [] => []
  | i, taken, c :: rest =>
    match partner? word reach i taken c with
    | some j => (c, j) :: partners word reach (i + 1) (j :: taken) rest
    | none => partners word reach (i + 1) taken rest

/-- How many of the partners stand in another order than the characters they belong to. -/
def disorder (word : List Char) (pairs : List (Char × Nat)) : Nat :=
  let places := (List.range word.length).filter fun j => pairs.any fun p => p.2 == j
  let inOrder := places.filterMap fun j => word[j]?
  (pairs.zip inOrder).countP fun (p, c) => p.1 != c

/-- How similar two words are: the mean of the share of partners in either word and the share of
partners that are in order, where two that are out of order count as one. -/
def similarity (a b : String) : Float :=
  let first := a.toList
  let second := b.toList
  let pairs := partners second (max first.length second.length / 2 - 1) 0 [] first
  let common := pairs.length
  if first.isEmpty && second.isEmpty then 1
  else if common = 0 then 0
  else
    let ordered := common - disorder second pairs / 2
    (common.toFloat / first.length.toFloat + common.toFloat / second.length.toFloat +
      ordered.toFloat / common.toFloat) / 3

/-- The similarity above which a word may stand for another. -/
def similarEnough : Float := 0.7

/-- The words that a misspelt one may stand for, the most similar last. -/
def similarTo (word : String) (words : List String) : List String :=
  let rated := (words.map fun w => (similarity word w, w)).filter fun r => r.1 > similarEnough
  (rated.mergeSort fun r s => r.1 ≤ s.1).map Prod.snd

end Irrigation.Text
