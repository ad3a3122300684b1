/-!
Cutting texts at marks and line ends.
-/

namespace Localnet.Text

/-- What comes before the first occurrence of a mark, and what comes after it. -/
def cut? (mark : List Char) : List Char → Option (List Char × List Char)
  | [] => if mark = [] then some ([], []) else none
  | c :: rest =>
    if mark.isPrefixOf (c :: rest) then some ([], (c :: rest).drop mark.length)
    else (cut? mark rest).map fun (before, after) => (c :: before, after)

/-- Lines with their ends, each of which is one character; `start` holds the line so far, the last
character first. -/
def linesFrom (isEnd : Char → Bool) (start : List Char) : List Char → List (List Char)
  | [] => if start = [] then [] else [start.reverse]
  | c :: rest =>
    if isEnd c then (c :: start).reverse :: linesFrom isEnd [] rest
    else linesFrom isEnd (c :: start) rest

def lines (isEnd : Char → Bool) (text : List Char) : List (List Char) := linesFrom isEnd [] text

theorem flatten_linesFrom (isEnd : Char → Bool) (start text : List Char) :
    (linesFrom isEnd start text).flatten = start.reverse ++ text := by
  induction text generalizing start with
  | nil =>
    unfold linesFrom
    split <;> simp_all
  | cons c rest ih =>
    unfold linesFrom
    split <;> simp [ih]

theorem flatten_lines (isEnd : Char → Bool) (text : List Char) :
    (lines isEnd text).flatten = text := by
  simp [lines, flatten_linesFrom]

end Localnet.Text
