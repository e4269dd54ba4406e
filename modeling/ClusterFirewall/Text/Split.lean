/-!
# Cutting texts into pieces

Texts are cut at every character of a class (a slash, a line feed, a blank), with the pieces kept
as lists of characters. Lines are the pieces between line feeds, with one carriage return before a
line feed counted to the ending and no line after a final line feed.

Blanks are the characters with the property White_Space. Commands are cut into words at them, and
diagnostics are trimmed of them.

Main statements: `flatten_splitAtEach`, the pieces hold all characters but the cut ones, in order,
and `intercalate_splitAtEach`, with a single character cut the text can be put together again.
-/

namespace ClusterFirewall.Text

/-- The pieces between the characters that pass the test; there is one more piece than such
characters. -/
def splitAtEach (cut : Char → Bool) : List Char → List (List Char)
  | [] => [[]]
  | c :: cs =>
    if cut c then [] :: splitAtEach cut cs
    else
      match splitAtEach cut cs with
      | [] => [[c]]
      | piece :: pieces => (c :: piece) :: pieces

theorem splitAtEach_ne_nil (cut : Char → Bool) (cs : List Char) : splitAtEach cut cs ≠ [] := by
  cases cs with
  | nil => simp [splitAtEach]
  | cons c cs =>
    unfold splitAtEach
    split
    · simp
    · split <;> simp

/-- Cutting loses the cut characters and nothing else. -/
theorem flatten_splitAtEach (cut : Char → Bool) (cs : List Char) :
    (splitAtEach cut cs).flatten = cs.filter fun c => !cut c := by
  induction cs with
  | nil => rfl
  | cons c cs ih =>
    unfold splitAtEach
    by_cases h : cut c
    · simp [h, ih]
    · have hne := splitAtEach_ne_nil cut cs
      cases hs : splitAtEach cut cs with
      | nil => exact absurd hs hne
      | cons piece pieces =>
        rw [hs] at ih
        simp [h, ← ih]

/-- Pieces that were cut at one character give the text again. -/
theorem intercalate_splitAtEach (mark : Char) (cs : List Char) :
    List.intercalate [mark] (splitAtEach (· == mark) cs) = cs := by
  induction cs with
  | nil => simp [splitAtEach, List.intercalate]
  | cons c cs ih =>
    have hne := splitAtEach_ne_nil (· == mark) cs
    unfold splitAtEach
    cases hs : splitAtEach (· == mark) cs with
    | nil => exact absurd hs hne
    | cons piece pieces =>
      rw [hs] at ih
      by_cases h : c = mark
      · subst h
        simpa [List.intercalate] using ih
      · cases pieces <;> simpa [h, List.intercalate] using ih

/-- The pieces of a string. -/
def split (cut : Char → Bool) (s : String) : List String :=
  (splitAtEach cut s.toList).map String.ofList

/-- The first place where a text holds a character, as what stands before and after it. -/
def splitOnce (mark : Char) : List Char → Option (List Char × List Char)
  | [] => none
  | c :: cs =>
    if c = mark then some ([], cs)
    else (splitOnce mark cs).map fun p => (c :: p.1, p.2)

/-- A text without the carriage return at its end, if it has one there. -/
def dropFinalReturn (cs : List Char) : List Char :=
  if cs.getLast? = some '\r' then cs.dropLast else cs

/-- The lines of a text without their endings. -/
def lineChars (cs : List Char) : List (List Char) :=
  let pieces := splitAtEach (· == '\n') cs
  let last := pieces.getLastD []
  pieces.dropLast.map dropFinalReturn ++ if last.isEmpty then [] else [last]

/-- The lines of a string without their endings. -/
def lines (s : String) : List String := (lineChars s.toList).map String.ofList

/-- Removes a mark from the front as often as it stands there, at most `n` times. -/
def dropRepeatedAtMost (mark : List Char) : Nat → List Char → List Char
  | 0, cs => cs
  | n + 1, cs =>
    if mark.isPrefixOf cs then dropRepeatedAtMost mark n (cs.drop mark.length) else cs

/-- Removes a non-empty mark from the front as often as it stands there. -/
def dropRepeated (mark : String) (s : String) : String :=
  String.ofList (dropRepeatedAtMost mark.toList s.length s.toList)

/-! ## Blanks -/

/-- Whether a character has the property White_Space. -/
def isBlank (c : Char) : Bool :=
  let n := c.toNat
  (0x09 ≤ n && n ≤ 0x0D) || n == 0x20 || n == 0x85 || n == 0xA0 || n == 0x1680 ||
    (0x2000 ≤ n && n ≤ 0x200A) || n == 0x2028 || n == 0x2029 || n == 0x202F || n == 0x205F ||
    n == 0x3000

/-- A text without the blanks at its front. -/
def trimStart (cs : List Char) : List Char := cs.dropWhile isBlank

/-- A text without the blanks at its end. -/
def trimEnd (cs : List Char) : List Char := (cs.reverse.dropWhile isBlank).reverse

/-- A string without the blanks at its front and end. -/
def trim (s : String) : String := String.ofList (trimEnd (trimStart s.toList))

/-- Whether a string holds nothing but blanks. -/
def isAllBlank (s : String) : Bool := s.toList.all isBlank

/-- The longest runs of characters that are no blanks. -/
def words (s : String) : List String :=
  (split isBlank s).filter fun w => !w.isEmpty

end ClusterFirewall.Text
