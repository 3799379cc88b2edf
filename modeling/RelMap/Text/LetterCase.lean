import RelMap.Text.Basic
import RelMap.Text.CaseTable

/-!
Lowercase text. Every character maps on its own but two: a dotted capital I becomes two
characters, and a capital sigma at the end of a word takes its final form.
-/
namespace RelMap.Text

/-- The shift that a run gives to the code point `n`, if it covers it. -/
def CaseRun.shift? (run : CaseRun) (n : Nat) : Option Int :=
  if run.first ≤ n && n ≤ run.last && (n - run.first) % run.stride == 0 then some run.shift
  else none

/-- The lowercase form of a character without regard to its neighbours. -/
def lowerChar (c : Char) : List Char :=
  if c.toNat < 0x80 then [c.toLower]
  else if c.toNat = 0x130 then ['i', '\u0307']
  else match lowerRuns.findSome? (CaseRun.shift? · c.toNat) with
    | some shift => [Char.ofNat (c.toNat + shift).toNat]
    | none => [c]

/-- Whether the first character that is not ignored for case is cased. -/
def startsCased (text : List Char) : Bool :=
  match text.dropWhile fun c => inRanges caseIgnorableRanges c.toNat with
  | [] => false
  | c :: _ => inRanges casedRanges c.toNat

/-- Lowers a text that follows the reversed `before`. -/
def lowerAfter (before : List Char) : List Char → List Char
  | [] => []
  | c :: rest =>
    let form :=
      if c = 'Σ' && startsCased before && !startsCased rest then ['ς'] else lowerChar c
    form ++ lowerAfter (c :: before) rest

/-- The lowercase form of a text. -/
def lower (text : String) : String :=
  String.ofList (lowerAfter [] text.toList)

/-- Whether a text is one of `words` when letter case is left aside. -/
def isWordOf (words : List String) (text : String) : Bool :=
  words.contains (lower text)

end RelMap.Text
