/-!
# Lines of a text

A line feed ends a line and takes one carriage return before it along (`lines_append_lf`); text after the last
line feed is a line only if there is any, and keeps its carriage returns (`lines_of_not_mem`).
-/

namespace Rejoin.Text

/-- The line whose characters were collected in reverse, one carriage return at its end dropped. -/
def endLine : List Char → List Char
  | '\r' :: r => r.reverse
  | cs => cs.reverse

/-- The lines of a text after the characters `seen` (in reverse) of an unfinished line. -/
def linesFrom (seen : List Char) : List Char → List (List Char)
  | [] => if seen = [] then [] else [seen.reverse]
  | c :: r => if c = '\n' then endLine seen :: linesFrom [] r else linesFrom (c :: seen) r

def lines (cs : List Char) : List (List Char) := linesFrom [] cs

theorem endLine_of_ne {cs : List Char} (h : cs.head? ≠ some '\r') : endLine cs = cs.reverse := by
  unfold endLine
  split
  next => exact absurd rfl h
  next => rfl

/-- Characters without a line feed are collected. -/
theorem linesFrom_append {l : List Char} (h : '\n' ∉ l) (seen r : List Char) :
    linesFrom seen (l ++ r) = linesFrom (l.reverse ++ seen) r := by
  induction l generalizing seen with
  | nil => rfl
  | cons c l ih =>
    have hc : c ≠ '\n' := fun e => h (e ▸ List.mem_cons_self)
    simp [linesFrom, hc, ih fun m => h (List.mem_cons_of_mem _ m)]

@[simp] theorem lines_nil : lines [] = [] := rfl

/-- The first line ends at the first line feed. -/
theorem lines_append_lf {l : List Char} (h : '\n' ∉ l) (r : List Char) :
    lines (l ++ '\n' :: r) = endLine l.reverse :: lines r := by
  rw [lines, linesFrom_append h]
  simp [linesFrom, lines]

/-- Text without a line feed is one line, if there is any. -/
theorem lines_of_not_mem {l : List Char} (h : '\n' ∉ l) (hl : l ≠ []) : lines l = [l] := by
  have := linesFrom_append h [] []
  simp only [List.append_nil] at this
  rw [lines, this]
  simp [linesFrom, hl]

example : lines "a\r\n\nb\r".toList = ["a".toList, [], "b\r".toList] := by decide

end Rejoin.Text
