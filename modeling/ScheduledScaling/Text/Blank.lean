/-!
White space in texts. A blank is a character with Unicode's `White_Space` property, which is more
than the four ASCII characters. `trim` drops blanks at both ends, `words` gives the runs of
characters between blanks, and `pieces` cuts a text at every separator.
-/
namespace ScheduledScaling.Text

/-- The characters with Unicode's `White_Space` property. -/
def isBlank (c : Char) : Bool :=
  let n := c.toNat
  (9 ≤ n && n ≤ 13) || n == 0x20 || n == 0x85 || n == 0xA0 || n == 0x1680 ||
    (0x2000 ≤ n && n ≤ 0x200A) || n == 0x2028 || n == 0x2029 || n == 0x202F || n == 0x205F ||
    n == 0x3000

def trimStart (s : List Char) : List Char := s.dropWhile isBlank

def trimEnd (s : List Char) : List Char := (s.reverse.dropWhile isBlank).reverse

def trim (s : List Char) : List Char := trimEnd (trimStart s)

/-- The parts of a text between separators, empty ones included: one more than there are
separators. -/
def pieces (isSeparator : Char → Bool) : List Char → List (List Char)
  | [] => [[]]
  | c :: rest =>
    if isSeparator c then [] :: pieces isSeparator rest
    else
      match pieces isSeparator rest with
      | [] => [[c]]
      | first :: others => (c :: first) :: others

/-- The non-empty runs of characters that are not blank. -/
def words (s : List Char) : List (List Char) :=
  (pieces isBlank s).filter fun w => !w.isEmpty

/-- The texts before and after the first separator; none when there is no separator. -/
def cut? (separator : Char) : List Char → Option (List Char × List Char)
  | [] => none
  | c :: rest =>
    if c = separator then some ([], rest)
    else (cut? separator rest).map fun (before, after) => (c :: before, after)

/-- Whether one text starts another, and what follows it. -/
def dropPrefix? : List Char → List Char → Option (List Char)
  | [], s => some s
  | _ :: _, [] => none
  | c :: cs, d :: ds => if c = d then dropPrefix? cs ds else none

/-- Whether a text occurs inside another. -/
def occursIn (needle : List Char) : List Char → Bool
  | [] => needle.isEmpty
  | c :: rest => (dropPrefix? needle (c :: rest)).isSome || occursIn needle rest

def trimmed (s : String) : String := String.ofList (trim s.toList)

/-- Whether a text holds nothing but blanks. -/
def isEmptyTrimmed (s : String) : Bool := s.toList.all isBlank

/-! ## Small laws -/

theorem isBlank_of_isWhitespace {c : Char} (h : c.isWhitespace) : isBlank c := by
  simp only [Char.isWhitespace, Bool.or_eq_true, decide_eq_true_eq] at h
  rcases h with ((h | h) | h) | h <;> subst h <;> decide

theorem pieces_ne_nil (p : Char → Bool) (s : List Char) : pieces p s ≠ [] := by
  cases s with
  | nil => simp [pieces]
  | cons c rest =>
    rw [pieces]
    split
    · simp
    · split <;> simp

theorem words_ne_nil {s w : List Char} (h : w ∈ words s) : w ≠ [] := by
  simp only [words, List.mem_filter, Bool.not_eq_eq_eq_not, Bool.not_true] at h
  intro hw
  simp [hw] at h

end ScheduledScaling.Text
