import ClusterFirewall.Proofs.Disk.Contents

/-!
# A file beside another

A file beside another is named by text: the folder of a path is cut off and a new name is put below
it. The place that the new path leads to is found by taking steps. Both agree on the last name, and
so a file with another name beside a path is apart from it.

Main statements: `getLast?_steps_sibling`, the path to a name beside another ends with this name,
`apart_beside`, whatever the folders are the two paths never lead to the same place, and
`exists_folder_of_beside`, they lead to two names in one folder.
-/

namespace ClusterFirewall

namespace Path

/-! ## The last piece -/

/-- A name that can be the last step of a path: it is not empty and no slash is in it. -/
structure IsName (name : String) : Prop where
  ne_empty : name ≠ ""
  no_slash : '/' ∉ name.toList

theorem IsName.append {s t : String} (hs : IsName s) (ht : '/' ∉ t.toList) : IsName (s ++ t) where
  ne_empty := by
    intro h
    exact hs.ne_empty (String.append_eq_empty_iff.1 h).1
  no_slash := by
    rw [String.toList_append, List.mem_append, not_or]
    exact ⟨hs.no_slash, ht⟩

theorem IsName.not_startsWith {s : String} (h : IsName s) : s.startsWith '/' = false := by
  rw [Bool.eq_false_iff]
  intro hslash
  obtain ⟨t, rfl⟩ := String.startsWith_char_iff_exists_append.1 hslash
  exact h.no_slash (by simp)

/-- A name that is continued is longer than the dots and than itself. -/
theorem IsName.append_ne {name suffix : String} (hname : IsName name) (hlong : 2 ≤ suffix.length) :
    name ++ suffix ≠ "." ∧ name ++ suffix ≠ ".." ∧ name ++ suffix ≠ name := by
  have hlength : (name ++ suffix).length = name.length + suffix.length :=
    String.length_append _ _
  have hpositive : 0 < name.length :=
    Nat.pos_of_ne_zero fun hzero => hname.ne_empty (String.length_eq_zero_iff.1 hzero)
  have hne : ∀ t : String, t.length < name.length + suffix.length → name ++ suffix ≠ t := by
    rintro t ht rfl
    omega
  have hdot : ".".length = 1 := rfl
  have hdots : "..".length = 2 := rfl
  exact ⟨hne "." (by omega), hne ".." (by omega), hne name (by omega)⟩

theorem exists_pieces_eq (cs : List Char) :
    ∃ cs', (ofChars cs).pieces = (Text.splitAtEach (· == '/') cs').map String.ofList := by
  unfold ofChars
  split
  · exact ⟨_, rfl⟩
  · exact ⟨_, rfl⟩

theorem no_slash_of_mem_pieces {s piece : String} (h : piece ∈ (ofText s).pieces) :
    '/' ∉ piece.toList := by
  obtain ⟨cs, hcs⟩ := exists_pieces_eq s.toList
  have hmem : piece ∈ (Text.splitAtEach (· == '/') cs).map String.ofList := hcs ▸ h
  obtain ⟨chars, hcut, rfl⟩ := List.mem_map.1 hmem
  intro hc
  have hkept : '/' ∈ (Text.splitAtEach (· == '/') cs).flatten :=
    List.mem_flatten.2 ⟨chars, hcut, by simpa using hc⟩
  rw [Text.flatten_splitAtEach] at hkept
  simpa using (List.mem_filter.1 hkept).2

theorem isName_of_mem_steps {s name : String} (h : name ∈ (ofText s).steps) : IsName name := by
  obtain ⟨hpiece, hname⟩ := List.mem_filter.1 h
  exact ⟨by simpa using hname, no_slash_of_mem_pieces hpiece⟩

theorem splitAtEach_name {name : String} (h : IsName name) :
    (Text.splitAtEach (· == '/') name.toList).map String.ofList = [name] := by
  have hkept : ∀ c ∈ name.toList, (c == '/') = false := by
    intro c hc
    rw [beq_eq_false_iff_ne]
    rintro rfl
    exact h.no_slash hc
  rw [Text.splitAtEach_of_forall hkept]
  simp

/-- What stands after a slash at the end of a text is its path's last piece. -/
theorem getLast?_pieces_of_slash (front : List Char) {name : String} (h : IsName name) :
    (ofChars (front ++ '/' :: name.toList)).pieces.getLast? = some name := by
  have hcut : ∀ before : List Char,
      ((Text.splitAtEach (· == '/') (before ++ '/' :: name.toList)).map String.ofList).getLast? =
        some name := by
    intro before
    rw [Text.splitAtEach_append_cons (by decide), List.map_append, splitAtEach_name h]
    simp
  -- A slash at the start is left out, which is either the one before the name or another one.
  unfold ofChars
  split
  · rename_i cs hcs
    cases front with
    | nil =>
      obtain rfl : name.toList = cs := (List.cons.inj hcs).2
      simp [splitAtEach_name h]
    | cons c front =>
      obtain rfl : front ++ '/' :: name.toList = cs := (List.cons.inj hcs).2
      exact hcut front
  · exact hcut front

theorem getLast?_pieces_of_name {name : String} (h : IsName name) :
    (ofText name).pieces.getLast? = some name := by
  unfold ofText ofChars
  split
  · rename_i cs hcs
    exact absurd (by simp [hcs]) h.no_slash
  · simp [splitAtEach_name h]

theorem getLast?_steps {p : Path} {name : String} (hlast : p.pieces.getLast? = some name)
    (hname : name ≠ "") : p.steps.getLast? = some name := by
  obtain ⟨front, hfront⟩ := List.getLast?_eq_some_iff.1 hlast
  rw [steps, hfront, List.filter_append]
  simp [hname]

theorem getLast?_pieces {p : Path} {name : String} (hlast : p.steps.getLast? = some name)
    (hslash : p.endsWithSlash = false) : p.pieces.getLast? = some name := by
  cases hpieces : p.pieces.getLast? with
  | none =>
    rw [List.getLast?_eq_none_iff] at hpieces
    simp [steps, hpieces] at hlast
  | some piece =>
    have hpiece : piece ≠ "" := by
      rintro rfl
      simp [endsWithSlash, hpieces] at hslash
    rw [← hlast, getLast?_steps hpieces hpiece]

/-! ## Names put below a folder -/

theorem getLast?_steps_join (folder : String) {name : String} (h : IsName name) :
    (ofText (join folder name)).steps.getLast? = some name := by
  refine getLast?_steps ?_ h.ne_empty
  unfold join
  split
  · exact getLast?_pieces_of_name h
  · split
    · rename_i hslash
      obtain ⟨front, rfl⟩ := String.endsWith_char_iff_exists_append.1 hslash
      unfold ofText
      simpa using getLast?_pieces_of_slash front.toList h
    · unfold ofText
      simpa using getLast?_pieces_of_slash folder.toList h

/-- The path to a name beside another ends with this name. -/
theorem getLast?_steps_sibling (p : Path) {name : String} (h : IsName name) :
    (ofText (p.sibling name)).steps.getLast? = some name :=
  getLast?_steps_join _ h

/-! ## The last name -/

theorem dropIdle_of_getLast? {pieces : List String} {name : String}
    (hlast : pieces.getLast? = some name) (hidle : isIdle name = false) :
    dropIdle pieces = pieces := by
  induction pieces with
  | nil => rfl
  | cons piece rest ih =>
    cases rest with
    | nil =>
      obtain rfl : piece = name := by simpa using hlast
      simp [dropIdle, hidle]
    | cons next rest =>
      rw [List.getLast?_cons_cons] at hlast
      rw [dropIdle, ih hlast]

theorem fileName?_of_getLast? {p : Path} {name : String} (hlast : p.pieces.getLast? = some name)
    (hname : name ≠ "") (hdot : name ≠ ".") (hdots : name ≠ "..") : p.fileName? = some name := by
  have hidle : isIdle name = false := by simp [isIdle, hname, hdot]
  have htrimmed : p.trimmed.pieces.getLast? = some name := by
    unfold trimmed
    split
    · rename_i hstart
      -- The dot at the start stays, and it is not the last piece.
      obtain ⟨front, hfront⟩ := List.getLast?_eq_some_iff.1 hlast
      cases front with
      | nil => simp [hfront, hdot] at hstart
      | cons first front =>
        have htail : p.pieces.tail.getLast? = some name := by simp [hfront]
        rw [dropIdle_of_getLast? htail hidle, List.getLast?_cons, htail]
        rfl
    · rw [dropIdle_of_getLast? hlast hidle, hlast]
  rw [fileName?, htrimmed]
  simp [hdot, hdots]

/-! ## The moves of a path -/

/-- The pieces that lead elsewhere. -/
def moves (pieces : List String) : List String := pieces.filter fun piece => !isIdle piece

/-- The moves that characters write. -/
def charMoves (cs : List Char) : List String :=
  moves ((Text.splitAtEach (· == '/') cs).map String.ofList)

@[simp] theorem moves_append (front back : List String) :
    moves (front ++ back) = moves front ++ moves back :=
  List.filter_append front back

theorem moves_cons (piece : String) (rest : List String) :
    moves (piece :: rest) = moves [piece] ++ moves rest :=
  moves_append [piece] rest

theorem moves_singleton {name : String} (h : isIdle name = false) : moves [name] = [name] := by
  simp [moves, h]

theorem moves_dropIdle (pieces : List String) : moves (dropIdle pieces) = moves pieces := by
  induction pieces with
  | nil => rfl
  | cons piece rest ih =>
    rw [moves_cons, dropIdle]
    split
    · rename_i hrest
      rw [← ih, hrest]
      split
      · rename_i hidle
        simp [moves, hidle]
      · simp [moves]
    · rw [moves_cons, ih]

theorem dropIdle_isPrefix (pieces : List String) : dropIdle pieces <+: pieces := by
  induction pieces with
  | nil => exact List.prefix_rfl
  | cons piece rest ih =>
    unfold dropIdle
    split
    · split
      · exact List.nil_prefix
      · exact List.prefix_cons_inj piece |>.2 List.nil_prefix
    · exact List.prefix_cons_inj piece |>.2 ih

/-- Trimming takes pieces from the end, none of which leads elsewhere. -/
theorem trimmed_spec (p : Path) : p.trimmed.absolute = p.absolute ∧
    p.trimmed.pieces <+: p.pieces ∧ moves p.trimmed.pieces = moves p.pieces := by
  unfold trimmed
  split
  · rename_i hstart
    have hhead : p.pieces.head? = some "." := by simp_all
    obtain ⟨rest, hrest⟩ := List.head?_eq_some_iff.1 hhead
    refine ⟨rfl, ?_, ?_⟩
    · rw [hrest]
      exact List.prefix_cons_inj "." |>.2 (dropIdle_isPrefix rest)
    · rw [hrest, List.tail_cons, moves_cons, moves_dropIdle, ← moves_cons]
  · exact ⟨rfl, dropIdle_isPrefix p.pieces, moves_dropIdle p.pieces⟩

/-- The path of the folder above makes all moves but the last. -/
theorem exists_parent?_eq {p : Path} {name : String} (h : p.fileName? = some name)
    (hidle : isIdle name = false) : ∃ above, p.parent? = some above ∧
      above.absolute = p.absolute ∧ above.pieces <+: p.pieces ∧
        moves p.pieces = moves above.pieces ++ [name] := by
  obtain ⟨hlast, -⟩ := Option.filter_eq_some_iff.1 h
  obtain ⟨front, hfront⟩ := List.getLast?_eq_some_iff.1 hlast
  obtain ⟨habsolute, htrimmed, hmoves⟩ := p.trimmed_spec
  have hparent : p.parent? = some (trimmed ⟨p.absolute, front⟩) := by
    unfold parent?
    split
    · rename_i hnil
      simp [hnil] at hfront
    · rename_i first rest hpieces
      rw [← hpieces, hfront, List.dropLast_concat]
  obtain ⟨habsolute', habove, hmoves'⟩ := trimmed_spec ⟨p.absolute, front⟩
  refine ⟨_, hparent, habsolute', ?_, ?_⟩
  · rw [hfront] at htrimmed
    exact habove.trans ((List.prefix_append front [name]).trans htrimmed)
  · rw [hmoves', ← hmoves, hfront, moves_append, moves_singleton hidle]

theorem charMoves_append_slash (before after : List Char) :
    charMoves (before ++ '/' :: after) = charMoves before ++ charMoves after := by
  unfold charMoves
  rw [Text.splitAtEach_append_cons (by decide), List.map_append, moves_append]

theorem charMoves_slash (cs : List Char) : charMoves ('/' :: cs) = charMoves cs :=
  charMoves_append_slash [] cs

theorem charMoves_of_not_mem {piece : String} (h : '/' ∉ piece.toList) :
    charMoves piece.toList = moves [piece] := by
  unfold charMoves
  rw [Text.splitAtEach_of_not_mem h, List.map_singleton, String.ofList_toList]

/-- A path makes the moves that its characters write. -/
theorem moves_pieces_ofText (s : String) : moves (ofText s).pieces = charMoves s.toList := by
  unfold ofText ofChars
  split
  · rename_i hcs
    rw [hcs, charMoves_slash]
    rfl
  · rfl

theorem absolute_ofText (s : String) :
    (ofText s).absolute = (s.toList.head? == some '/') := by
  unfold ofText ofChars
  split
  · rename_i hcs
    rw [hcs]
    rfl
  · rename_i hcs
    cases hs : s.toList with
    | nil => rfl
    | cons c cs =>
      have hc : c ≠ '/' := by
        rintro rfl
        exact hcs cs hs
      simp [hc]

theorem charMoves_intercalate {pieces : List String} (h : ∀ piece ∈ pieces, '/' ∉ piece.toList) :
    charMoves ("/".intercalate pieces).toList = moves pieces := by
  rw [String.toList_intercalate]
  induction pieces with
  | nil => rfl
  | cons piece rest ih =>
    obtain ⟨hpiece, hrest⟩ := List.forall_mem_cons.1 h
    cases rest with
    | nil => simpa [List.intercalate] using charMoves_of_not_mem hpiece
    | cons next rest =>
      rw [moves_cons, ← ih hrest, ← charMoves_of_not_mem hpiece, ← charMoves_append_slash]
      rfl

theorem IsName.absolute_ofText {name : String} (h : IsName name) :
    (ofText name).absolute = false := by
  rw [Path.absolute_ofText]
  cases hcs : name.toList with
  | nil => rfl
  | cons c cs =>
    have hc : c ≠ '/' := by
      rintro rfl
      exact h.no_slash (hcs ▸ List.mem_cons_self)
    simpa using hc

/-- A text that starts with no slash is cut into pieces of which the first is not empty, unless it is
empty itself. -/
theorem eq_empty_of_head?_pieces {s : String} (habsolute : (ofText s).absolute = false)
    (hhead : (ofText s).pieces.head? = some "") : s = "" := by
  rw [absolute_ofText] at habsolute
  unfold ofText ofChars at hhead
  cases hs : s.toList with
  | nil => exact String.toList_eq_nil_iff.1 hs
  | cons c cs =>
    have hc : c ≠ '/' := by simpa [hs] using habsolute
    obtain ⟨piece, pieces, hpieces⟩ :=
      List.exists_cons_of_ne_nil (Text.splitAtEach_ne_nil (· == '/') cs)
    simp [hs, hc, Text.splitAtEach, hpieces] at hhead

/-- The text of a path starts where the path does, unless the path starts with nothing. -/
theorem absolute_ofText_text {p : Path} (hpieces : ∀ piece ∈ p.pieces, '/' ∉ piece.toList)
    (hstart : p.absolute = false → p.pieces.head? ≠ some "") :
    (ofText p.text).absolute = p.absolute := by
  rw [absolute_ofText]
  unfold text
  cases habsolute : p.absolute with
  | true => simp
  | false =>
    cases hp : p.pieces with
    | nil => rfl
    | cons first rest =>
      rw [hp] at hpieces hstart
      have hfirst : first ≠ "" := by simpa using hstart habsolute
      obtain ⟨c, cs, hcs⟩ := List.exists_cons_of_ne_nil (mt String.toList_eq_nil_iff.1 hfirst)
      have hc : c ≠ '/' := by
        rintro rfl
        exact hpieces first List.mem_cons_self (hcs ▸ List.mem_cons_self)
      cases rest <;> simp [List.intercalate, hcs, hc]

theorem charMoves_text {p : Path} (hpieces : ∀ piece ∈ p.pieces, '/' ∉ piece.toList) :
    charMoves p.text.toList = moves p.pieces := by
  unfold text
  rw [← charMoves_intercalate hpieces]
  split
  · rw [String.toList_append]
    exact charMoves_slash _
  · rw [String.empty_append]

/-- A name below a folder is reached from where the folder is, by one more move. -/
theorem join_spec (folder : String) {name : String} (h : IsName name) :
    (ofText (join folder name)).absolute = (ofText folder).absolute ∧
      charMoves (join folder name).toList = charMoves folder.toList ++ moves [name] := by
  have hname : charMoves name.toList = moves [name] := charMoves_of_not_mem h.no_slash
  have hslash : name.startsWith '/' = false := h.not_startsWith
  unfold join
  split
  · rename_i hempty
    have hfolder : folder = "" := by simpa [hslash] using hempty
    subst hfolder
    exact ⟨h.absolute_ofText, hname⟩
  · rename_i hempty
    have hfolder : folder.toList ≠ [] := by
      rw [Ne, String.toList_eq_nil_iff]
      simpa [hslash] using hempty
    obtain ⟨c, cs, hcs⟩ := List.exists_cons_of_ne_nil hfolder
    rw [absolute_ofText, absolute_ofText]
    split
    · rename_i hend
      obtain ⟨front, hfront⟩ := String.endsWith_char_iff_exists_append.1 hend
      have hchars : folder.toList = front.toList ++ ['/'] := by simp [hfront]
      have hbefore : charMoves folder.toList = charMoves front.toList := by
        rw [hchars, charMoves_append_slash]
        exact List.append_nil _
      refine ⟨by simp [hcs], ?_⟩
      rw [hbefore, ← hname, ← charMoves_append_slash, String.toList_append, hchars,
        List.append_assoc]
      rfl
    · rw [String.toList_append, String.toList_append, List.append_assoc]
      refine ⟨by simp [hcs], ?_⟩
      rw [← hname]
      exact charMoves_append_slash _ _

/-- A path and that to a name beside it start at the same place and make the same moves but the
last. -/
theorem exists_moves_sibling {s name new : String} (hfile : (ofText s).fileName? = some name)
    (hidle : isIdle name = false) (hnew : IsName new) (hidle' : isIdle new = false) :
    (ofText ((ofText s).sibling new)).absolute = (ofText s).absolute ∧
      ∃ way, charMoves s.toList = way ++ [name] ∧
        charMoves ((ofText s).sibling new).toList = way ++ [new] := by
  obtain ⟨above, hparent, habsolute, habove, hmoves⟩ := exists_parent?_eq hfile hidle
  rw [moves_pieces_ofText] at hmoves
  have hpieces : ∀ piece ∈ above.pieces, '/' ∉ piece.toList := fun piece hpiece =>
    no_slash_of_mem_pieces (habove.subset hpiece)
  have hstart : above.absolute = false → above.pieces.head? ≠ some "" := by
    -- Else the folder's text would start with a slash that its path does not have.
    intro hrelative hhead
    obtain ⟨rest, hrest⟩ := List.head?_eq_some_iff.1 hhead
    obtain ⟨more, hmore⟩ := habove
    have hempty : s = "" := by
      refine eq_empty_of_head?_pieces (habsolute ▸ hrelative) ?_
      rw [← hmore, hrest]
      rfl
    -- The empty text makes no moves at all.
    subst hempty
    have hnone : charMoves "".toList = [] := rfl
    rw [hnone] at hmoves
    exact absurd hmoves.symm (by simp)
  have hsibling : (ofText s).sibling new = join above.text new := by
    unfold sibling
    rw [hfile, hparent]
    rfl
  obtain ⟨hjoin, hjoin'⟩ := join_spec above.text hnew
  rw [hsibling, hjoin, hjoin', absolute_ofText_text hpieces hstart, charMoves_text hpieces,
    moves_singleton hidle']
  exact ⟨habsolute, _, hmoves, rfl⟩

end Path

/-! ## Files beside files -/

namespace Disk

/-- A path that a file can have ends with a name, which the file has in the folder before it. -/
theorem exists_name_of_newPlace {d : Disk} {path : String} {p : Place}
    (h : d.newPlace path = .ok p) :
    ∃ folder name, p = folder ++ [name] ∧
      d.follow (d.startOf (Path.ofText path)) (Path.ofText path).steps.dropLast = .ok folder ∧
      (Path.ofText path).steps.getLast? = some name ∧
      (Path.ofText path).endsWithSlash = false ∧ name ≠ "." ∧ name ≠ ".." := by
  obtain ⟨dest, hdest, hplace, hslash, hentry, -⟩ := newPlace_eq_ok_iff.1 h
  simp only [resolve, bind_eq_ok_iff] at hdest
  obtain ⟨-, -, folder, hfolder, -, -, hdest⟩ := hdest
  split at hdest
  · exact absurd (Except.ok.inj hdest).symm (hentry _)
  · rename_i name hname
    split at hdest
    · exact absurd (Except.ok.inj hdest).symm (hentry _)
    · rename_i hdots
      obtain rfl := Except.ok.inj hdest
      obtain ⟨-, -, hplace⟩ := bind_eq_ok_iff.1 hplace
      simp only [Bool.or_eq_true, decide_eq_true_eq, not_or] at hdots
      exact ⟨folder, name, (Except.ok.inj hplace).symm, hfolder, hname, hslash, hdots⟩

/-- Steps lead where their moves do. -/
theorem foldl_after_moves (here : Place) (pieces : List String) :
    (Path.moves pieces).foldl Place.after here =
      (pieces.filter (· != "")).foldl Place.after here := by
  induction pieces generalizing here with
  | nil => rfl
  | cons piece rest ih =>
    by_cases hempty : piece = ""
    · simpa [Path.moves, Path.isIdle, hempty] using ih here
    · by_cases hdot : piece = "."
      · -- A single dot stays where it is.
        subst hdot
        simpa [Path.moves, Path.isIdle, Place.after] using ih here
      · simpa [Path.moves, Path.isIdle, hempty, hdot] using ih (Place.after here piece)

theorem eq_foldl_of_follow {d : Disk} {here there : Place} {steps : List String}
    (h : d.follow here steps = .ok there) : there = steps.foldl Place.after here := by
  induction steps generalizing here with
  | nil => exact (Except.ok.inj h).symm
  | cons step rest ih =>
    simp only [follow, bind_eq_ok_iff] at h
    obtain ⟨-, -, -, -, h⟩ := h
    exact ih h

/-- The place of a file is where the moves of its path lead. -/
theorem eq_foldl_of_newPlace {d : Disk} {path : String} {p : Place}
    (h : d.newPlace path = .ok p) :
    p = (Path.charMoves path.toList).foldl Place.after (d.startOf (Path.ofText path)) := by
  obtain ⟨folder, name, rfl, hfolder, hname, -, hdot, hdots⟩ := exists_name_of_newPlace h
  obtain ⟨front, hfront⟩ := List.getLast?_eq_some_iff.1 hname
  rw [hfront, List.dropLast_concat] at hfolder
  rw [← Path.moves_pieces_ofText, foldl_after_moves, eq_foldl_of_follow hfolder]
  show _ = (Path.ofText path).steps.foldl _ _
  rw [hfront, List.foldl_append]
  simp [Place.after, hdot, hdots]

section Beside

variable {d : Disk} {path suffix : String} {p q : Place}

/-- A path that a file can have ends with the name of the file. -/
theorem exists_fileName?_of_newPlace (h : d.newPlace path = .ok p) :
    ∃ name, (Path.ofText path).fileName? = some name ∧ Path.IsName name ∧
      (Path.ofText path).steps.getLast? = some name ∧ name ≠ "." ∧ name ≠ ".." := by
  obtain ⟨-, name, -, -, hname, hslash, hdot, hdots⟩ := exists_name_of_newPlace h
  have hstep : Path.IsName name := Path.isName_of_mem_steps (List.mem_of_getLast? hname)
  exact ⟨name, Path.fileName?_of_getLast? (Path.getLast?_pieces hname hslash) hstep.ne_empty hdot
    hdots, hstep, hname, hdot, hdots⟩

/-- A file whose name is that of a path and some more is apart from the path. -/
theorem apart_beside (h : d.newPlace path = .ok p) (hsuffix : '/' ∉ suffix.toList)
    (hlong : 2 ≤ suffix.length) :
    Apart ((Path.ofText path).sibling ((Path.ofText path).fileName?.getD "" ++ suffix)) path := by
  obtain ⟨name, hfile, hname, hlast, hdot, hdots⟩ := exists_fileName?_of_newPlace h
  obtain ⟨hdot', hdots', hother⟩ := hname.append_ne hlong
  rw [hfile, Option.getD_some]
  exact apart_of_names (name ++ suffix) name
    (Path.getLast?_steps_sibling _ (hname.append hsuffix)) hdot' hdots' hlast hdot hdots hother

/-- A file whose name is that of a path and some more stands in the folder of the path. -/
theorem exists_folder_of_beside (h : d.newPlace path = .ok p)
    (hbeside : d.newPlace ((Path.ofText path).sibling
      ((Path.ofText path).fileName?.getD "" ++ suffix)) = .ok q)
    (hsuffix : '/' ∉ suffix.toList) (hlong : 2 ≤ suffix.length) :
    ∃ folder name, p = folder ++ [name] ∧ q = folder ++ [name ++ suffix] := by
  obtain ⟨name, hfile, hname, -, hdot, hdots⟩ := exists_fileName?_of_newPlace h
  obtain ⟨hdot', hdots', -⟩ := hname.append_ne hlong
  have hname' : Path.IsName (name ++ suffix) := hname.append hsuffix
  have hidle : Path.isIdle name = false := by simp [Path.isIdle, hname.ne_empty, hdot]
  have hidle' : Path.isIdle (name ++ suffix) = false := by
    simp only [Path.isIdle, Bool.or_eq_false_iff, beq_eq_false_iff_ne]
    exact ⟨hname'.ne_empty, hdot'⟩
  rw [hfile, Option.getD_some] at hbeside
  obtain ⟨habsolute, way, hway, hway'⟩ := Path.exists_moves_sibling hfile hidle hname' hidle'
  refine ⟨way.foldl Place.after (d.startOf (Path.ofText path)), name, ?_, ?_⟩
  · rw [eq_foldl_of_newPlace h, hway, List.foldl_append]
    simp [Place.after, hdot, hdots]
  · -- Both paths start at the same place.
    have hstart : d.startOf (Path.ofText ((Path.ofText path).sibling (name ++ suffix))) =
        d.startOf (Path.ofText path) := by
      rw [startOf, startOf, habsolute]
    rw [eq_foldl_of_newPlace hbeside, hway', hstart, List.foldl_append, List.foldl_cons,
      List.foldl_nil, Place.after, if_neg hdot', if_neg hdots']

end Beside

end Disk

end ClusterFirewall
