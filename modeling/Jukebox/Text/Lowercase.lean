import Jukebox.Text.CaseTable

/-!
Lower-casing of whole texts. Every character is mapped on its own except the Greek capital sigma,
which becomes a final sigma where it ends a word.
-/

namespace Jukebox.Text

/-- The lower-case form of a character beyond ASCII that has a simple one. -/
def lowercaseRun? (n : Nat) : Option Nat :=
  (lowercaseRuns.find? fun (first, last, step, _) =>
    first ≤ n && n ≤ last && (n - first) % step == 0).map fun (first, _, _, form) =>
      form + (n - first)

/-- The lower-case form of one character: one character, but for the dotted capital I, which
keeps its dot as a combining mark. -/
def lowercaseChar (c : Char) : List Char :=
  if c.toNat < 0x80 then [c.toLower]
  else if c = 'İ' then ['i', '\u0307']
  else match lowercaseRun? c.toNat with
    | some n => [Char.ofNat n]
    | none => [c]

/-- Whether a character lies in one of the ranges. -/
def inRanges (ranges : Array (Nat × Nat)) (c : Char) : Bool :=
  ranges.any fun (first, last) => first ≤ c.toNat && c.toNat ≤ last

/-- Whether the first character that is not passed over is a letter with case. -/
def meetsCased (neighbours : List Char) : Bool :=
  match neighbours.dropWhile (inRanges caseIgnorableRanges) with
  | [] => false
  | c :: _ => inRanges casedRanges c

/-- Lower-cases a text from left to right; `before` holds what was read, nearest first. A capital
sigma with a letter before it and none after it ends a word. -/
def lowercaseFrom (before : List Char) : List Char → List Char
  | [] => []
  | c :: rest =>
    (if c = 'Σ' then [if meetsCased before && !meetsCased rest then 'ς' else 'σ']
      else lowercaseChar c) ++ lowercaseFrom (c :: before) rest

def lowercase (text : String) : List Char := lowercaseFrom [] text.toList

end Jukebox.Text
