import ClusterFirewall.Disk.Files
import ClusterFirewall.Error
import ClusterFirewall.Proofs.Text.Pieces

/-!
# What stays in files

Writing a file puts bytes at one place where no folder stands, and so no path that leads somewhere
leads elsewhere afterwards. Two paths are **apart** if they never lead to the same place.

Main statements: `bytes?_change`, changing a file leaves the files of all paths apart from it as
they were, and `bytes?_writeAtomic`, a file that was replaced as a whole holds the new bytes. That a
change succeeds is said by `exists_writeAtomic`, `exists_rename` and `exists_remove`.
-/

namespace ClusterFirewall

theorem orFault_eq_ok_iff {α : Type} {x : Except Fault α} {a : α} :
    orFault x = .ok a ↔ x = .ok a := by
  cases x <;> simp [orFault]

theorem bind_eq_ok_iff {ε α β : Type} {x : Except ε α} {f : α → Except ε β} {b : β} :
    (x >>= f) = .ok b ↔ ∃ a, x = .ok a ∧ f a = .ok b := by
  cases x <;> simp [bind, Except.bind]

theorem isOk_iff_exists {ε α : Type} {x : Except ε α} : x.isOk ↔ ∃ a, x = .ok a := by
  cases x <;> simp [Except.isOk, Except.toBool]

namespace Destination

/-- The place that a destination stands for. -/
def place : Destination → Except Fault Place
  | .folder here => .ok here
  | .entry here name _ => Disk.placeIn here name

/-- Whether a destination asks for a folder by a slash at the end. -/
def asksForFolder : Destination → Bool
  | .folder _ => false
  | .entry _ _ withSlash => withSlash

end Destination

namespace Disk

/-- The bytes of a file, if a path leads to one. -/
def bytes? (d : Disk) (path : String) : Option ByteArray := (d.readBytes path).toOption

/-- Two paths never lead to the same place, whatever is on the disk. -/
def Apart (path path' : String) : Prop :=
  ∀ (d : Disk) (p p' : Place), d.locate path = .ok p → d.locate path' = .ok p' → p ≠ p'

theorem Apart.symm {path path' : String} (h : Apart path path') : Apart path' path :=
  fun d p p' hp hp' => (h d p' p hp' hp).symm

/-- No folder stands at a place, and it is not the root. -/
def Free (d : Disk) (p : Place) : Prop := ∀ mode, d.get? p ≠ some (.folder mode)

theorem Free.ne_nil {d : Disk} {p : Place} (h : d.Free p) : p ≠ [] := by
  rintro rfl
  exact h 0o755 rfl

theorem locate_eq_ok_iff {d : Disk} {path : String} {p : Place} :
    d.locate path = .ok p ↔ ∃ dest, d.resolve path = .ok dest ∧ dest.place = .ok p := by
  unfold locate
  rw [bind_eq_ok_iff]
  apply exists_congr
  intro dest
  cases dest <;> rfl

theorem exists_of_locate_name {d : Disk} {path name : String} {p : Place}
    (hname : (Path.ofText path).steps.getLast? = some name) (hdot : name ≠ ".")
    (hdots : name ≠ "..")
    (hp : d.locate path = .ok p) : ∃ folder, p = folder ++ [name] := by
  obtain ⟨dest, hdest, hplace⟩ := locate_eq_ok_iff.1 hp
  simp only [resolve, bind_eq_ok_iff, hname] at hdest
  obtain ⟨-, -, folder, -, -, -, hdest⟩ := hdest
  have hentry : (name = "." || name = "..") = false := by simp [hdot, hdots]
  simp only [hentry, Bool.false_eq_true, if_false] at hdest
  obtain rfl := Except.ok.inj hdest
  obtain ⟨-, -, hplace⟩ := bind_eq_ok_iff.1 hplace
  exact ⟨folder, (Except.ok.inj hplace).symm⟩

/-- Paths to different names never lead to the same place. -/
theorem apart_of_names {path path' : String} (name name' : String)
    (hname : (Path.ofText path).steps.getLast? = some name) (hdot : name ≠ ".")
    (hdots : name ≠ "..")
    (hname' : (Path.ofText path').steps.getLast? = some name') (hdot' : name' ≠ ".")
    (hdots' : name' ≠ "..") (hne : name ≠ name') : Apart path path' := by
  rintro d p p' hp hp' rfl
  obtain ⟨folder, rfl⟩ := exists_of_locate_name hname hdot hdots hp
  obtain ⟨folder', hsame⟩ := exists_of_locate_name hname' hdot' hdots' hp'
  exact hne (List.singleton_inj.1 (List.append_inj_right' hsame rfl))

/-! ## Disks with the same folders -/

/-- Two disks differ in their files at most, so that no path leads elsewhere on one of them. -/
structure SameFolders (d d' : Disk) : Prop where
  workingFolder : d'.workingFolder = d.workingFolder
  folders : ∀ q mode, d'.get? q = some (.folder mode) ↔ d.get? q = some (.folder mode)

theorem get?_set_file {d : Disk} {p : Place} {content : ByteArray} {mode : Nat} (h : d.Free p)
    (q : Place) :
    (d.set p (.file content mode)).get? q =
      if q = p then some (.file content mode) else d.get? q := by
  by_cases hq : q = []
  · subst hq
    rw [if_neg h.ne_nil.symm]
    rfl
  · exact d.get?_set _ hq

/-- A file in a place without a folder makes no folder and takes none away. -/
theorem sameFolders_set_file {d : Disk} {p : Place} (h : d.Free p) (content : ByteArray)
    (mode : Nat) : d.SameFolders (d.set p (.file content mode)) where
  workingFolder := rfl
  folders := by
    intro q m
    rw [get?_set_file h]
    by_cases hq : q = p
    · subst hq
      simpa using h m
    · rw [if_neg hq]

theorem get?_erase_file {d : Disk} {p : Place} (h : d.Free p) (q : Place) :
    (d.erase p).get? q = if q = p then none else d.get? q := by
  by_cases hq : q = []
  · subst hq
    rw [if_neg h.ne_nil.symm]
    rfl
  · exact d.get?_erase hq

theorem sameFolders_erase {d : Disk} {p : Place} (h : d.Free p) : d.SameFolders (d.erase p) where
  workingFolder := rfl
  folders := by
    intro q m
    rw [get?_erase_file h]
    by_cases hq : q = p
    · subst hq
      simpa using h m
    · rw [if_neg hq]

theorem checkFolder_eq_ok_iff {d : Disk} {q : Place} :
    d.checkFolder q = .ok () ↔ ∃ m, d.get? q = some (.folder m) := by
  unfold checkFolder
  split <;> simp_all

namespace SameFolders

variable {d d' : Disk}

theorem free_iff (h : d.SameFolders d') (p : Place) : d'.Free p ↔ d.Free p :=
  forall_congr' fun mode => not_congr (h.folders p mode)

theorem checkFolder_iff (h : d.SameFolders d') (q : Place) :
    d'.checkFolder q = .ok () ↔ d.checkFolder q = .ok () := by
  rw [checkFolder_eq_ok_iff, checkFolder_eq_ok_iff]
  exact exists_congr (h.folders q)

theorem follow_iff (h : d.SameFolders d') (steps : List String) (here there : Place) :
    d'.follow here steps = .ok there ↔ d.follow here steps = .ok there := by
  induction steps generalizing here with
  | nil => rfl
  | cons step rest ih => simp only [follow, bind_eq_ok_iff, h.checkFolder_iff, ih]

theorem resolve_iff (h : d.SameFolders d') (path : String) (dest : Destination) :
    d'.resolve path = .ok dest ↔ d.resolve path = .ok dest := by
  unfold resolve
  simp only [bind_eq_ok_iff]
  have hstart : d'.startOf (Path.ofText path) = d.startOf (Path.ofText path) := by
    unfold startOf
    rw [h.workingFolder]
  simp only [hstart, h.follow_iff, h.checkFolder_iff]

theorem trans {d'' : Disk} (h : d.SameFolders d') (h' : d'.SameFolders d'') :
    d.SameFolders d'' where
  workingFolder := h'.workingFolder.trans h.workingFolder
  folders := fun q mode => (h'.folders q mode).trans (h.folders q mode)

theorem scratchPath_eq (h : d.SameFolders d') (path : String) :
    d'.scratchPath path = d.scratchPath path := by
  unfold scratchPath
  rw [h.workingFolder]

theorem locate_iff (h : d.SameFolders d') (path : String) (p : Place) :
    d'.locate path = .ok p ↔ d.locate path = .ok p := by
  simp only [locate_eq_ok_iff, h.resolve_iff]

end SameFolders

/-! ## Reading -/

/-- Where no folder is asked for, a path leads to what stands at its place. -/
theorem find_of_place {d : Disk} {path : String} {dest : Destination} {p : Place}
    (hdest : d.resolve path = .ok dest) (hp : dest.place = .ok p)
    (hslash : dest.asksForFolder = false) :
    d.find path = match d.get? p with
      | some node => .ok node
      | none => .error .notFound := by
  rw [find, hdest]
  cases dest with
  | folder place =>
    obtain rfl := Except.ok.inj hp
    rfl
  | entry folder name withSlash =>
    obtain rfl : withSlash = false := hslash
    have hplace : placeIn folder name = .ok p := hp
    simp only [bind, Except.bind, hplace]
    -- A file and a folder are found alike, as no slash follows the name.
    cases d.get? p with
    | none => rfl
    | some node => cases node <;> rfl

theorem find_eq_file_iff {d : Disk} {path : String} {content : ByteArray} {mode : Nat} :
    d.find path = .ok (.file content mode) ↔
      ∃ dest p, d.resolve path = .ok dest ∧ dest.place = .ok p ∧ dest.asksForFolder = false ∧
        d.get? p = some (.file content mode) := by
  constructor
  · intro hfind
    obtain ⟨dest, hdest, hnode⟩ := bind_eq_ok_iff.1 hfind
    cases dest with
    | folder place =>
      refine ⟨_, place, hdest, rfl, rfl, ?_⟩
      dsimp only at hnode
      split at hnode
      · rename_i node hget
        rw [hget, Except.ok.inj hnode]
      · cases hnode
    | entry folder name withSlash =>
      obtain ⟨p, hp, hfound⟩ := bind_eq_ok_iff.1 hnode
      -- A file is found only where no folder is asked for by a slash at the end.
      split at hfound
      · cases hfound
      · rename_i hget
        cases withSlash with
        | true => cases hfound
        | false =>
          rw [Except.ok.inj hfound] at hget
          exact ⟨_, p, hdest, hp, rfl, hget⟩
      · cases hfound
  · rintro ⟨dest, p, hdest, hp, hslash, hget⟩
    rw [find_of_place hdest hp hslash, hget]

theorem readBytes_eq_ok_iff {d : Disk} {path : String} {content : ByteArray} :
    d.readBytes path = .ok content ↔
      ∃ dest p mode, d.resolve path = .ok dest ∧ dest.place = .ok p ∧
        dest.asksForFolder = false ∧ d.get? p = some (.file content mode) := by
  unfold readBytes
  rw [bind_eq_ok_iff]
  constructor
  · rintro ⟨node, hfind, hcontent⟩
    cases node with
    | folder m => cases hcontent
    | file c m =>
      obtain rfl := Except.ok.inj hcontent
      obtain ⟨dest, p, hdest, hp, hslash, hget⟩ := find_eq_file_iff.1 hfind
      exact ⟨dest, p, m, hdest, hp, hslash, hget⟩
  · rintro ⟨dest, p, m, hdest, hp, hslash, hget⟩
    exact ⟨.file content m, find_eq_file_iff.2 ⟨dest, p, hdest, hp, hslash, hget⟩, rfl⟩

theorem bytes?_eq_some_iff {d : Disk} {path : String} {content : ByteArray} :
    d.bytes? path = some content ↔ d.readBytes path = .ok content := by
  unfold bytes?
  cases d.readBytes path <;> simp [Except.toOption]

theorem bytes?_of_find {d : Disk} {path : String} {content : ByteArray} {mode : Nat}
    (h : d.find path = .ok (.file content mode)) : d.bytes? path = some content :=
  bytes?_eq_some_iff.2 (bind_eq_ok_iff.2 ⟨_, h, rfl⟩)

theorem readText_eq_ok_iff {d : Disk} {path text : String} :
    d.readText path = .ok text ↔ d.bytes? path = some text.toUTF8 := by
  unfold readText
  rw [bytes?_eq_some_iff, bind_eq_ok_iff]
  constructor
  · rintro ⟨content, hread, htext⟩
    split at htext
    · rename_i s hs
      obtain rfl := Except.ok.inj htext
      rw [hread, Text.decode?_eq_some_iff.1 hs]
    · cases htext
  · intro hread
    refine ⟨_, hread, ?_⟩
    rw [Text.decode?_eq_some_iff.2 rfl]
    rfl

/-- The bytes of a file at a place. -/
def Node.bytes? : Node → Option ByteArray
  | .file content _ => some content
  | .folder _ => none

/-- The file of a path is what stands at the place that the path leads to. -/
theorem bytes?_of_place {d : Disk} {path : String} {dest : Destination} {p : Place}
    (hdest : d.resolve path = .ok dest) (hp : dest.place = .ok p)
    (hslash : dest.asksForFolder = false) : d.bytes? path = (d.get? p).bind Node.bytes? := by
  apply Option.ext
  intro content
  rw [bytes?_eq_some_iff, readBytes_eq_ok_iff]
  constructor
  · rintro ⟨dest', q, m, hdest', hq, -, hget⟩
    -- A path leads to one place only.
    obtain rfl := Except.ok.inj (hdest'.symm.trans hdest)
    obtain rfl := Except.ok.inj (hq.symm.trans hp)
    rw [hget]
    rfl
  · intro hcontent
    obtain ⟨node, hget, hnode⟩ := Option.bind_eq_some_iff.1 hcontent
    cases node with
    | folder m => cases hnode
    | file old m =>
      obtain rfl := Option.some.inj hnode
      exact ⟨dest, p, m, hdest, hp, hslash, hget⟩

/-- Where nothing changed at the place of a path, its file is as it was. -/
theorem SameFolders.bytes?_eq {d d' : Disk} (h : d.SameFolders d') {path : String}
    (hpath : ∀ q, d.locate path = .ok q → d'.get? q = d.get? q) :
    d'.bytes? path = d.bytes? path := by
  apply Option.ext
  intro c
  simp only [bytes?_eq_some_iff, readBytes_eq_ok_iff, h.resolve_iff]
  apply exists_congr
  intro dest
  apply exists_congr
  intro q
  apply exists_congr
  intro m
  apply and_congr_right
  intro hdest
  apply and_congr_right
  intro hq
  rw [hpath q (locate_eq_ok_iff.2 ⟨dest, hdest, hq⟩)]

/-- A file that is put elsewhere leaves a path's file as it is. -/
theorem bytes?_set_file {d : Disk} {p : Place} {content : ByteArray} {mode : Nat} (h : d.Free p)
    {path : String} (hpath : ∀ q, d.locate path = .ok q → q ≠ p) :
    (d.set p (.file content mode)).bytes? path = d.bytes? path := by
  apply (sameFolders_set_file h content mode).bytes?_eq
  intro q hq
  rw [get?_set_file h, if_neg (hpath q hq)]

/-- A file that is put at the place of a path is the path's file from then on. -/
theorem bytes?_set_self {d : Disk} {path : String} {dest : Destination} {p : Place}
    (hdest : d.resolve path = .ok dest) (hp : dest.place = .ok p)
    (hslash : dest.asksForFolder = false) (h : d.Free p) (content : ByteArray) (mode : Nat) :
    (d.set p (.file content mode)).bytes? path = some content := by
  have hdest' := ((sameFolders_set_file h content mode).resolve_iff path dest).2 hdest
  rw [bytes?_of_place hdest' hp hslash, get?_set_file h, if_pos rfl]
  rfl

/-- A file that is put at the place of a path leaves the file of a path apart from it as it is. -/
theorem bytes?_set_of_apart {d : Disk} {path path' : String} {dest : Destination} {p : Place}
    {content : ByteArray} {mode : Nat} (hdest : d.resolve path = .ok dest)
    (hp : dest.place = .ok p) (h : d.Free p) (hapart : Apart path path') :
    (d.set p (.file content mode)).bytes? path' = d.bytes? path' := by
  apply bytes?_set_file h
  intro q hq
  exact (hapart d p q (locate_eq_ok_iff.2 ⟨dest, hdest, hp⟩) hq).symm

/-- A file that is taken away elsewhere leaves a path's file as it is. -/
theorem bytes?_erase_file {d : Disk} {p : Place} (h : d.Free p) {path : String}
    (hpath : ∀ q, d.locate path = .ok q → q ≠ p) : (d.erase p).bytes? path = d.bytes? path := by
  apply (sameFolders_erase h).bytes?_eq
  intro q hq
  rw [get?_erase_file h, if_neg (hpath q hq)]

/-! ## Writing -/

/-- What a change of a file did: the new bytes come from those that were there, or from none. -/
theorem exists_set_of_change {d d' : Disk} {path : String} {f : ByteArray → ByteArray}
    (h : d.change path f = .ok d') :
    ∃ dest p mode, d.resolve path = .ok dest ∧ dest.place = .ok p ∧ dest.asksForFolder = false ∧
      (∀ place, dest ≠ .folder place) ∧ d.Free p ∧
        d' = d.set p (.file (f ((d.bytes? path).getD .empty)) mode) := by
  obtain ⟨dest, hdest, hrest⟩ := bind_eq_ok_iff.1 h
  cases dest with
  | folder place => cases hrest
  | entry folder name withSlash =>
    cases withSlash with
    | true => cases hrest
    | false =>
      obtain ⟨p, hp, hset⟩ := bind_eq_ok_iff.1 hrest
      have hbytes := bytes?_of_place hdest hp rfl
      -- Either a file is there and keeps its mode, or nothing is and a file comes into being.
      split at hset
      · cases hset
      · rename_i old mode hget
        refine ⟨_, p, mode, hdest, hp, rfl, nofun, ?_, ?_⟩
        · intro m
          simp [hget]
        · rw [hbytes, hget]
          exact (Except.ok.inj hset).symm
      · rename_i hget
        refine ⟨_, p, 0o644, hdest, hp, rfl, nofun, ?_, ?_⟩
        · intro m
          simp [hget]
        · rw [hbytes, hget]
          exact (Except.ok.inj hset).symm

/-- A file that was changed holds the changed bytes. -/
theorem bytes?_change_self {d d' : Disk} {path : String} {f : ByteArray → ByteArray}
    (h : d.change path f = .ok d') : d'.bytes? path = some (f ((d.bytes? path).getD .empty)) := by
  obtain ⟨dest, p, mode, hdest, hp, hslash, -, hfree, rfl⟩ := exists_set_of_change h
  exact bytes?_set_self hdest hp hslash hfree _ mode

/-- Changing a file leaves the file of a path apart from it as it was. -/
theorem bytes?_change {d d' : Disk} {path path' : String} {f : ByteArray → ByteArray}
    (h : d.change path f = .ok d') (hapart : Apart path path') :
    d'.bytes? path' = d.bytes? path' := by
  obtain ⟨dest, p, mode, hdest, hp, -, -, hfree, rfl⟩ := exists_set_of_change h
  exact bytes?_set_of_apart hdest hp hfree hapart

/-- A file gets a new name only where no folder stands and none is asked for. -/
theorem newPlace_eq_ok_iff {d : Disk} {path : String} {p : Place} :
    d.newPlace path = .ok p ↔
      ∃ dest, d.resolve path = .ok dest ∧ dest.place = .ok p ∧ dest.asksForFolder = false ∧
        (∀ place, dest ≠ .folder place) ∧ d.Free p := by
  unfold newPlace
  rw [bind_eq_ok_iff]
  apply exists_congr
  intro dest
  apply and_congr_right
  intro _
  -- Only a name that no slash follows gets as far as its place.
  cases dest with
  | folder place =>
    constructor
    · intro h
      cases h
    · rintro ⟨-, -, hentry, -⟩
      exact absurd rfl (hentry place)
  | entry folder name withSlash =>
    cases withSlash with
    | true =>
      constructor
      · intro h
        obtain ⟨q, -, hfound⟩ := bind_eq_ok_iff.1 h
        cases hfound
      · rintro ⟨-, hslash, -⟩
        cases hslash
    | false =>
      show (placeIn folder name >>= _) = _ ↔ placeIn folder name = _ ∧ _
      constructor
      · intro h
        obtain ⟨q, hq, hfound⟩ := bind_eq_ok_iff.1 h
        rw [if_neg (by decide)] at hfound
        split at hfound
        · cases hfound
        · rename_i hnone
          obtain rfl := Except.ok.inj hfound
          exact ⟨hq, rfl, nofun, fun m hm => hnone m hm⟩
      · rintro ⟨hp, -, -, hfree⟩
        refine bind_eq_ok_iff.2 ⟨p, hp, ?_⟩
        rw [if_neg (by decide)]
        split
        · rename_i m hm
          exact absurd hm (hfree m)
        · rfl

/-- A file can be changed wherever a file could get its name. -/
theorem exists_change {d : Disk} {path : String} {p : Place} (hnew : d.newPlace path = .ok p)
    (f : ByteArray → ByteArray) : ∃ d', d.change path f = .ok d' := by
  obtain ⟨dest, hdest, hp, hslash, hentry, hfree⟩ := newPlace_eq_ok_iff.1 hnew
  cases dest with
  | folder place => exact absurd rfl (hentry place)
  | entry folder name withSlash =>
    obtain rfl : withSlash = false := hslash
    have hplace : placeIn folder name = .ok p := hp
    rw [change, hdest]
    simp only [bind, Except.bind, hplace]
    -- What stands at the place is a file or nothing.
    cases hget : d.get? p with
    | none => exact ⟨_, rfl⟩
    | some node =>
      cases node with
      | file old mode => exact ⟨_, rfl⟩
      | folder mode => exact absurd hget (hfree mode)

theorem SameFolders.newPlace_iff {d d' : Disk} (h : d.SameFolders d') (path : String) (p : Place) :
    d'.newPlace path = .ok p ↔ d.newPlace path = .ok p := by
  simp only [newPlace_eq_ok_iff, h.resolve_iff, h.free_iff]

/-- A file that a path leads to stands at the place of the path. -/
theorem exists_place_of_find {d : Disk} {path : String} {content : ByteArray} {mode : Nat}
    (hfind : d.find path = .ok (.file content mode)) :
    ∃ dest p, d.resolve path = .ok dest ∧ dest.place = .ok p ∧ dest.asksForFolder = false ∧
      d.Free p := by
  obtain ⟨dest, p, hdest, hp, hslash, hget⟩ := find_eq_file_iff.1 hfind
  refine ⟨dest, p, hdest, hp, hslash, ?_⟩
  intro mode'
  simp [hget]

theorem free_of_find_file {d : Disk} {path : String} {content : ByteArray} {mode : Nat}
    {p : Place} (hfind : d.find path = .ok (.file content mode)) (hp : d.locate path = .ok p) :
    d.Free p := by
  obtain ⟨dest, q, hdest, hq, -, hfree⟩ := exists_place_of_find hfind
  have hlocate : d.locate path = .ok q := locate_eq_ok_iff.2 ⟨dest, hdest, hq⟩
  obtain rfl := Except.ok.inj (hlocate.symm.trans hp)
  exact hfree

/-- Removing a file leaves the file of a path apart from it as it was. -/
theorem bytes?_remove {d d' : Disk} {path path' : String} (h : d.remove path = .ok d')
    (hapart : Apart path path') : d'.bytes? path' = d.bytes? path' := by
  obtain ⟨node, hfind, hrest⟩ := bind_eq_ok_iff.1 h
  cases node with
  | folder mode => cases hrest
  | file content mode =>
    obtain ⟨p, hp, herase⟩ := bind_eq_ok_iff.1 hrest
    obtain rfl := Except.ok.inj herase
    apply bytes?_erase_file (free_of_find_file hfind hp)
    intro q hq
    exact (hapart d p q hp hq).symm

/-- A new name leaves the file of a path apart from the old and the new one as it was. -/
theorem bytes?_rename {d d' : Disk} {source target path : String}
    (h : d.rename source target = .ok d') (hsource : Apart source path)
    (htarget : Apart target path) : d'.bytes? path = d.bytes? path := by
  obtain ⟨node, hfind, hrest⟩ := bind_eq_ok_iff.1 h
  cases node with
  | folder mode => cases hrest
  | file content mode =>
    obtain ⟨here, hhere, hrest⟩ := bind_eq_ok_iff.1 hrest
    obtain ⟨there, hthere, hset⟩ := bind_eq_ok_iff.1 hrest
    obtain rfl := Except.ok.inj hset
    obtain ⟨dest, hdest, hplace, -, -, hfree⟩ := newPlace_eq_ok_iff.1 hthere
    have htaken := free_of_find_file hfind hhere
    have hlocate : d.locate target = .ok there := locate_eq_ok_iff.2 ⟨dest, hdest, hplace⟩
    have herased := sameFolders_erase htaken
    -- The file is taken away at the old place before it is put at the new one.
    rw [bytes?_set_file ((herased.free_iff there).2 hfree), bytes?_erase_file htaken]
    · intro q hq
      exact (hsource d here q hhere hq).symm
    · intro q hq
      exact (htarget d there q hlocate ((herased.locate_iff path q).1 hq)).symm

theorem find_erase_self {d : Disk} {path : String} {dest : Destination} {p : Place}
    (hdest : d.resolve path = .ok dest) (hp : dest.place = .ok p)
    (hslash : dest.asksForFolder = false) (h : d.Free p) :
    (d.erase p).find path = .error .notFound := by
  have hdest' := ((sameFolders_erase h).resolve_iff path dest).2 hdest
  rw [find_of_place hdest' hp hslash, get?_erase_file h, if_pos rfl]

/-- A file that is found can be removed, and is not found any more. -/
theorem exists_remove {d : Disk} {path : String} {content : ByteArray} {mode : Nat}
    (hfind : d.find path = .ok (.file content mode)) :
    ∃ d', d.remove path = .ok d' ∧ d.SameFolders d' ∧ d'.find path = .error .notFound := by
  obtain ⟨dest, p, hdest, hp, hslash, hfree⟩ := exists_place_of_find hfind
  have hlocate : d.locate path = .ok p := locate_eq_ok_iff.2 ⟨dest, hdest, hp⟩
  refine ⟨d.erase p, ?_, sameFolders_erase hfree, find_erase_self hdest hp hslash hfree⟩
  exact bind_eq_ok_iff.2 ⟨_, hfind, bind_eq_ok_iff.2 ⟨p, hlocate, rfl⟩⟩

/-- A file that is found can be given a name apart from its own where that name can be given. It is
found there from then on, and not under its own name. -/
theorem exists_rename {d : Disk} {source target : String} {content : ByteArray} {mode : Nat}
    {there : Place} (hfind : d.find source = .ok (.file content mode))
    (hnew : d.newPlace target = .ok there) (hapart : Apart source target) :
    ∃ d', d.rename source target = .ok d' ∧ d.SameFolders d' ∧
      d'.find source = .error .notFound ∧ d'.bytes? target = some content := by
  obtain ⟨dest, here, hdest, hp, hslash, hhere⟩ := exists_place_of_find hfind
  obtain ⟨dest', hdest', hp', hslash', -, hthere⟩ := newPlace_eq_ok_iff.1 hnew
  have hlocate : d.locate source = .ok here := locate_eq_ok_iff.2 ⟨dest, hdest, hp⟩
  -- The file leaves its place before it comes to the new one, and these are two places.
  have hne : here ≠ there := hapart d here there hlocate (locate_eq_ok_iff.2 ⟨dest', hdest', hp'⟩)
  have herased := sameFolders_erase hhere
  have hfree := (herased.free_iff there).2 hthere
  have hset := sameFolders_set_file hfree content mode
  refine ⟨(d.erase here).set there (.file content mode), ?_, herased.trans hset, ?_, ?_⟩
  · refine bind_eq_ok_iff.2 ⟨_, hfind, bind_eq_ok_iff.2 ⟨here, hlocate, ?_⟩⟩
    exact bind_eq_ok_iff.2 ⟨there, hnew, rfl⟩
  · have hsource := ((herased.trans hset).resolve_iff source dest).2 hdest
    rw [find_of_place hsource hp hslash, get?_set_file hfree, if_neg hne, get?_erase_file hhere,
      if_pos rfl]
  · exact bytes?_set_self ((herased.resolve_iff target dest').2 hdest') hp' hslash' hfree content
      mode

theorem holdsZero_of_resolve {d : Disk} {path : String} {dest : Destination}
    (h : d.resolve path = .ok dest) : holdsZero path = false := by
  obtain ⟨_, hcheck, _⟩ := bind_eq_ok_iff.1 h
  unfold checkPath at hcheck
  split at hcheck
  · cases hcheck
  · rename_i hzero
    simpa using hzero

/-- A file can be replaced as a whole where a new name can be given, beside which there is room for
a while. It is found from then on. -/
theorem exists_writeAtomic {d : Disk} {path : String} {beside : Destination} {p : Place}
    (hscratch : d.resolve (d.scratchPath path) = .ok beside) (hnew : d.newPlace path = .ok p)
    (content : ByteArray) :
    ∃ d', d.writeAtomic path content = .ok d' ∧ d.SameFolders d' ∧
      d'.find path = .ok (.file content 0o600) := by
  obtain ⟨dest, hdest, hp, hslash, -, hfree⟩ := newPlace_eq_ok_iff.1 hnew
  have hset := sameFolders_set_file hfree content 0o600
  refine ⟨d.set p (.file content 0o600), ?_, hset, ?_⟩
  · refine bind_eq_ok_iff.2 ⟨beside, hscratch, ?_⟩
    rw [holdsZero_of_resolve hdest, if_neg (by decide)]
    exact bind_eq_ok_iff.2 ⟨p, hnew, rfl⟩
  · rw [find_of_place ((hset.resolve_iff path dest).2 hdest) hp hslash, get?_set_file hfree,
      if_pos rfl]

/-- What replacing a file as a whole did. -/
theorem exists_set_of_writeAtomic {d d' : Disk} {path : String} {content : ByteArray}
    (h : d.writeAtomic path content = .ok d') :
    ∃ dest p, d.resolve path = .ok dest ∧ dest.place = .ok p ∧ dest.asksForFolder = false ∧
      (∀ place, dest ≠ .folder place) ∧ d.Free p ∧ d' = d.set p (.file content 0o600) := by
  obtain ⟨_, _, hrest⟩ := bind_eq_ok_iff.1 h
  split at hrest
  · cases hrest
  · obtain ⟨p, hnew, hset⟩ := bind_eq_ok_iff.1 hrest
    obtain ⟨dest, hdest, hp, hslash, hentry, hfree⟩ := newPlace_eq_ok_iff.1 hnew
    exact ⟨dest, p, hdest, hp, hslash, hentry, hfree, (Except.ok.inj hset).symm⟩

/-- A file that was replaced as a whole holds the new bytes. -/
theorem bytes?_writeAtomic {d d' : Disk} {path : String} {content : ByteArray}
    (h : d.writeAtomic path content = .ok d') : d'.bytes? path = some content := by
  obtain ⟨dest, p, hdest, hp, hslash, -, hfree, rfl⟩ := exists_set_of_writeAtomic h
  exact bytes?_set_self hdest hp hslash hfree content 0o600

theorem sameFolders_of_writeAtomic {d d' : Disk} {path : String} {content : ByteArray}
    (h : d.writeAtomic path content = .ok d') : d.SameFolders d' := by
  obtain ⟨-, p, -, -, -, -, hfree, rfl⟩ := exists_set_of_writeAtomic h
  exact sameFolders_set_file hfree content 0o600

/-- A file that was replaced as a whole can be changed. -/
theorem change_of_writeAtomic {d d' : Disk} {path : String} {content : ByteArray}
    (h : d.writeAtomic path content = .ok d') (f : ByteArray → ByteArray) :
    ∃ d'', d'.change path f = .ok d'' := by
  obtain ⟨dest, p, hdest, hp, hslash, hentry, hfree, -⟩ := exists_set_of_writeAtomic h
  have hnew : d.newPlace path = .ok p :=
    newPlace_eq_ok_iff.2 ⟨dest, hdest, hp, hslash, hentry, hfree⟩
  exact exists_change (((sameFolders_of_writeAtomic h).newPlace_iff path p).2 hnew) f

/-- Replacing a file as a whole leaves the file of a path apart from it as it was. -/
theorem bytes?_writeAtomic_of_apart {d d' : Disk} {path path' : String} {content : ByteArray}
    (h : d.writeAtomic path content = .ok d') (hapart : Apart path path') :
    d'.bytes? path' = d.bytes? path' := by
  obtain ⟨dest, p, hdest, hp, -, -, hfree, rfl⟩ := exists_set_of_writeAtomic h
  exact bytes?_set_of_apart hdest hp hfree hapart

/-! ## Adding to a file -/

/-- Something can be added to the file of a path. -/
def Appendable (d : Disk) (path : String) : Prop := (d.append path .empty).isOk

instance (d : Disk) (path : String) : Decidable (d.Appendable path) :=
  inferInstanceAs (Decidable (_ = true))

/-- A file can be added to wherever a file could get its name. -/
theorem appendable_iff {d : Disk} {path : String} :
    d.Appendable path ↔ ∃ p, d.newPlace path = .ok p := by
  unfold Appendable
  rw [isOk_iff_exists]
  constructor
  · rintro ⟨d', happend⟩
    obtain ⟨dest, p, -, hdest, hp, hslash, hentry, hfree, -⟩ := exists_set_of_change happend
    exact ⟨p, newPlace_eq_ok_iff.2 ⟨dest, hdest, hp, hslash, hentry, hfree⟩⟩
  · rintro ⟨p, hnew⟩
    exact exists_change hnew _

theorem SameFolders.appendable_iff {d d' : Disk} (h : d.SameFolders d') (path : String) :
    d'.Appendable path ↔ d.Appendable path := by
  simp only [Disk.appendable_iff, h.newPlace_iff]

theorem sameFolders_of_change {d d' : Disk} {path : String} {f : ByteArray → ByteArray}
    (h : d.change path f = .ok d') : d.SameFolders d' := by
  obtain ⟨-, p, mode, -, -, -, -, hfree, rfl⟩ := exists_set_of_change h
  exact sameFolders_set_file hfree _ mode

/-- Where one thing can be added, everything can, and more after it. -/
theorem Appendable.exists_append {d : Disk} {path : String} (h : d.Appendable path)
    (content : ByteArray) : ∃ d', d.append path content = .ok d' ∧ d'.Appendable path := by
  obtain ⟨p, hnew⟩ := appendable_iff.1 h
  obtain ⟨d', happend⟩ := exists_change hnew (· ++ content)
  exact ⟨d', happend, ((sameFolders_of_change happend).appendable_iff path).2 h⟩

end Disk

end ClusterFirewall
