import ClusterFirewall.Text.Split

/-!
# Paths

A path is cut at its slashes. It is used in two ways. A place is found by taking one step after the
other, dots included. The folder above, the last name and a name beside it are taken from the text
as it is written: what stands before the last name stays letter by letter, and only the slashes and
single dots right before and after that name go.

Main statements: `text_ofText`, cutting a text at its slashes loses nothing, and
`length_pieces_parent?`, there are fewer pieces in the path of the folder above.
-/

namespace ClusterFirewall

/-- A path as it is written. -/
structure Path where
  /-- Whether the text starts with a slash. -/
  absolute : Bool
  /-- The pieces between the slashes, that at the start left out. -/
  pieces : List String
  deriving DecidableEq, Repr

namespace Path

/-! ## Reading and writing -/

/-- The path that a list of characters writes. -/
def ofChars : List Char → Path
  | '/' :: cs => ⟨true, (Text.splitAtEach (· == '/') cs).map String.ofList⟩
  | cs => ⟨false, (Text.splitAtEach (· == '/') cs).map String.ofList⟩

/-- The path that a text writes. -/
def ofText (s : String) : Path := ofChars s.toList

/-- The text of a path. -/
def text (p : Path) : String := (if p.absolute then "/" else "") ++ "/".intercalate p.pieces

private theorem intercalate_pieces (cs : List Char) :
    "/".intercalate ((Text.splitAtEach (· == '/') cs).map String.ofList) = String.ofList cs := by
  apply String.toList_inj.1
  rw [String.toList_intercalate, List.map_map, String.toList_ofList]
  have h : (Text.splitAtEach (· == '/') cs).map (String.toList ∘ String.ofList) =
      Text.splitAtEach (· == '/') cs := by simp [Function.comp_def]
  rw [h, String.toList_ofList]
  exact Text.intercalate_splitAtEach '/' cs

/-- Cutting a text at its slashes loses nothing. -/
theorem text_ofText (s : String) : (ofText s).text = s := by
  unfold ofText
  generalize h : s.toList = cs
  have hs : s = String.ofList cs := by simp [← h]
  subst hs
  unfold ofChars
  split <;> simp [text, intercalate_pieces]

/-! ## Steps -/

/-- The steps that a path takes from where it starts. -/
def steps (p : Path) : List String := p.pieces.filter (· != "")

/-- Whether the text ends with a slash, which asks for a folder. -/
def endsWithSlash (p : Path) : Bool := p.pieces.getLast? == some ""

/-! ## The folder above and the last name -/

/-- Whether a piece leads nowhere. -/
def isIdle (piece : String) : Bool := piece == "" || piece == "."

/-- The pieces without those at the end that lead nowhere. -/
def dropIdle : List String → List String
  | [] => []
  | piece :: rest =>
    match dropIdle rest with
    | [] => if isIdle piece then [] else [piece]
    | kept => piece :: kept

/-- The path without the slashes and single dots at its end; a dot that the path starts with
stays. -/
def trimmed (p : Path) : Path :=
  if !p.absolute && p.pieces.head? == some "." then
    { p with pieces := "." :: dropIdle p.pieces.tail }
  else { p with pieces := dropIdle p.pieces }

/-- The folder that the last piece stands in, if there is a last piece. -/
def parent? (p : Path) : Option Path :=
  match p.trimmed.pieces with
  | [] => none
  | first :: rest => some (trimmed ⟨p.absolute, (first :: rest).dropLast⟩)

/-- The last piece, if it is a name. -/
def fileName? (p : Path) : Option String :=
  p.trimmed.pieces.getLast?.filter fun piece => piece != "." && piece != ".."

/-- The text of a name below a folder that is given as text; an absolute name stands for itself. -/
def join (folder name : String) : String :=
  if name.startsWith '/' || folder.isEmpty then name
  else if folder.endsWith '/' then folder ++ name
  else folder ++ "/" ++ name

/-- The text of a name in the same folder as the last name; without a last name, below the whole
path. -/
def sibling (p : Path) (name : String) : String :=
  join (if p.fileName?.isSome then p.parent?.getD p else p).text name

/-! ## Lengths -/

theorem length_dropIdle (pieces : List String) : (dropIdle pieces).length ≤ pieces.length := by
  induction pieces with
  | nil => simp [dropIdle]
  | cons piece rest ih =>
    unfold dropIdle
    split
    · split <;> simp
    · simpa using ih

/-- Trimming makes no pieces. -/
theorem length_pieces_trimmed (p : Path) : p.trimmed.pieces.length ≤ p.pieces.length := by
  unfold trimmed
  split
  · rename_i h
    cases hp : p.pieces with
    | nil => simp [hp] at h
    | cons piece rest => simpa using length_dropIdle rest
  · exact length_dropIdle p.pieces

/-- The path of the folder above has fewer pieces. -/
theorem length_pieces_parent? {p above : Path} (h : p.parent? = some above) :
    above.pieces.length < p.pieces.length := by
  have ht := length_pieces_trimmed p
  unfold parent? at h
  split at h
  · cases h
  · rename_i first rest hp
    obtain rfl := Option.some.inj h
    have := length_pieces_trimmed ⟨p.absolute, (first :: rest).dropLast⟩
    simp only [hp, List.length_cons, List.length_dropLast] at ht this
    omega

end Path

end ClusterFirewall
