/-!
# Similar words

How alike two texts are is measured by the characters that they have in common: the longest common
run, and then, in the same way, the common characters before it and behind it.  The likeness of two
texts is twice that number over the sum of their lengths.

In a long word, a character that is very frequent starts no run; it can only lengthen one.
-/

namespace Parley.Text

/-- The length of the longest common start of two texts that holds characters of a class only. -/
def commonStart (p : Char → Bool) : List Char → List Char → Nat
  | a :: as, b :: bs => if a == b && p a then commonStart p as bs + 1 else 0
  | _, _ => 0

/-- A common run of two texts: where it starts in the first and in the second, and its length. -/
structure Run where
  first : Nat
  second : Nat
  length : Nat

/-- The longer one of two runs, the former of two that are equally long. -/
def Run.longer (r s : Run) : Run := if r.length < s.length then s else r

/-- The longest common run of two texts that holds characters of a class only, the earliest one if
there are several. -/
def longestRun (p : Char → Bool) (a b : List Char) : Run :=
  (List.range a.length).foldl
    (fun best i =>
      let tail := a.drop i
      (List.range b.length).foldl
        (fun best j => best.longer ⟨i, j, commonStart p tail (b.drop j)⟩) best)
    ⟨0, 0, 0⟩

/-- The run lengthened on both sides by equal characters of any class. -/
def Run.extend (a b : List Char) (r : Run) : Run :=
  let before := commonStart (fun _ => true) (a.take r.first).reverse (b.take r.second).reverse
  let behind := commonStart (fun _ => true) (a.drop (r.first + r.length))
    (b.drop (r.second + r.length))
  ⟨r.first - before, r.second - before, before + r.length + behind⟩

/-- The longest common run after it was lengthened. -/
def commonRun (p : Char → Bool) (a b : List Char) : Run := (longestRun p a b).extend a b

/-- The number of characters that two texts have in common, run by run. -/
def commonCount (p : Char → Bool) (a b : List Char) : Nat :=
  match commonRun p a b with
  | ⟨first, second, length⟩ =>
    if 0 < length ∧ first + length ≤ a.length then
      commonCount p (a.take first) (b.take second) + length +
        commonCount p (a.drop (first + length)) (b.drop (second + length))
    else 0
termination_by a.length
decreasing_by all_goals (simp only [List.length_take, List.length_drop]; omega)

/-- The characters that may start a run in a given word: all of them in a word of less than two
hundred characters, and otherwise those that make up no more than about one in a hundred. -/
def startsRun (word : List Char) (c : Char) : Bool :=
  word.length < 200 || word.count c ≤ word.length / 100 + 1

/-- The likeness of two texts as a fraction. -/
structure Likeness where
  common : Nat
  total : Nat

/-- The likeness of a candidate to a word; two empty texts are fully alike. -/
def likeness (word candidate : List Char) : Likeness :=
  if word.isEmpty && candidate.isEmpty then ⟨1, 1⟩
  else ⟨2 * commonCount (startsRun word) candidate word, candidate.length + word.length⟩

/-- Whether the first likeness is the greater one. -/
def Likeness.above (a b : Likeness) : Bool := b.common * a.total < a.common * b.total

/-- At least six tenths alike. -/
def Likeness.close (a : Likeness) : Bool := 3 * a.total ≤ 5 * a.common

/-- The three candidates that are most like a word, among those that are at least six tenths alike.
Of two that are equally alike the one that sorts last comes first. -/
def similar (word : String) (candidates : List String) : List String :=
  let scored := candidates.map fun c => (likeness word.toList c.toList, c)
  let ranked := (scored.filter (·.1.close)).mergeSort fun a b =>
    a.1.above b.1 || (!b.1.above a.1 && decide (b.2 ≤ a.2))
  (ranked.take 3).map (·.2)

end Parley.Text
