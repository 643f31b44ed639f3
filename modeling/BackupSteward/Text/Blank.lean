/-!
# Blank characters

White space in names, numbers and lines of text, and trimming it away.  A line is *blank*
when nothing is left of it.
-/

namespace BackupSteward.Text

/-- The white space characters of Unicode: the controls from tabulator to carriage return,
the four separators below space, and every space, line and paragraph separator.  A zero
width space and a byte order mark are no white space. -/
def isBlank (c : Char) : Bool :=
  let n := c.toNat
  (9 ≤ n && n ≤ 13) || (28 ≤ n && n ≤ 32) || n == 0x85 || n == 0xA0 || n == 0x1680 ||
    (0x2000 ≤ n && n ≤ 0x200A) || n == 0x2028 || n == 0x2029 || n == 0x202F ||
    n == 0x205F || n == 0x3000

/-- The characters without the white space in front of them. -/
def trimLeft (cs : List Char) : List Char := cs.dropWhile isBlank

/-- The characters without the white space behind them. -/
def trimRight (cs : List Char) : List Char := (cs.reverse.dropWhile isBlank).reverse

/-- The characters without the white space around them. -/
def trim (cs : List Char) : List Char := trimRight (trimLeft cs)

/-- A text without the white space around it. -/
def stripped (s : String) : String := String.ofList (trim s.toList)

/-- Whether a text holds white space only. -/
def blank (s : String) : Bool := s.toList.all isBlank

/-- What is left after trimming in front does not begin with white space. -/
theorem isBlank_head_trimLeft {cs r : List Char} {c : Char} (h : trimLeft cs = c :: r) :
    isBlank c = false := by
  induction cs with
  | nil => simp [trimLeft] at h
  | cons d ds ih =>
    by_cases hd : isBlank d = true
    · exact ih (by simpa [trimLeft, List.dropWhile_cons, hd] using h)
    · have h' : d = c ∧ ds = r := by simpa [trimLeft, List.dropWhile_cons, hd] using h
      simpa [h'.1] using hd

/-- A text of white space only is trimmed to nothing. -/
theorem trimLeft_of_all {cs : List Char} (h : cs.all isBlank = true) : trimLeft cs = [] := by
  induction cs with
  | nil => rfl
  | cons d ds ih =>
    simp only [List.all_cons, Bool.and_eq_true] at h
    simpa [trimLeft, List.dropWhile_cons, h.1] using ih h.2

end BackupSteward.Text
