import ClusterFirewall.Proofs.Digest.Hex
import ClusterFirewall.Proofs.First
import ClusterFirewall.Proofs.Json.Grammar
import ClusterFirewall.Proofs.Snapshot.Reloading
import ClusterFirewall.Proofs.Snapshot.Tolerance

/-!
# Snapshot files that were changed

The checksum of a snapshot file is not that of its text but of the compact text of the entries that
were read from it. So whatever the reader does not notice does not matter to it; and because the
compact text of entries is read back as these entries, all that the reader notices does.

Main statement: `load_detects_changes`.
-/

namespace ClusterFirewall

namespace PolicyKey

/-- The name of an entry is a namespace and a policy's name with a slash between them. The first
slash is the one that counts. -/
def IsText (s : String) : Prop :=
  ∃ space name : String, s = space ++ "/" ++ name ∧ '/' ∉ space.toList ∧ space ≠ "" ∧ name ≠ ""

theorem isText_iff {s : String} : IsText s ↔ ∃ k, parse? s = some k := by
  constructor
  · rintro ⟨space, name, rfl, hslash, hspace, hname⟩
    have hkey : Writable ⟨space, name⟩ := ⟨hspace, hslash, hname⟩
    have htext : text ⟨space, name⟩ = space ++ "/" ++ name := rfl
    rw [← htext]
    exact ⟨_, parse?_text hkey⟩
  · rintro ⟨k, hk⟩
    obtain ⟨rfl, hspace, hslash, hname⟩ := of_parse? hk
    exact ⟨k.space, k.name, rfl, hslash, hspace, hname⟩

end PolicyKey

namespace SnapshotFile

/-- The compact text of entries by their names, which the checksum is the digest of. -/
def entriesText (specs : SortedMap String PolicySpec) : String :=
  (Json.record (specs.entries.map fun e => (e.1, toJson e.2))).compact

/-- Version, checksum and names are in order. -/
structure Intact (f : SnapshotFile) : Prop where
  version : f.version = 1
  checksum : f.checksum = Sha256.hex (entriesText f.specs)
  names : ∀ name ∈ f.specs.keys, PolicyKey.IsText name

/-- Why a file is refused: the version comes before the checksum, and the checksum before the
names. -/
inductive Refused (f : SnapshotFile) : SnapshotError → Prop
  /-- The version is another one. -/
  | version (h : f.version ≠ 1) : Refused f (.versionMismatch f.version 1)
  /-- The checksum is not that of the entries. -/
  | checksum (hversion : f.version = 1) (h : f.checksum ≠ Sha256.hex (entriesText f.specs)) :
      Refused f (.checksumMismatch f.checksum (Sha256.hex (entriesText f.specs)))
  /-- The first name that is not the text of a key. -/
  | name {name : String} (hversion : f.version = 1)
      (hchecksum : f.checksum = Sha256.hex (entriesText f.specs))
      (h : IsFirst f.specs.keys (fun name => ¬ PolicyKey.IsText name) name) :
      Refused f (.invalidKey name)

theorem recordEntries_eq_error_iff {entries : List (String × PolicySpec)} {s : SnapshotStore}
    {e : SnapshotError} :
    recordEntries entries s = .error e ↔ ∃ name,
      IsFirst (entries.map (·.1)) (fun name => ¬ PolicyKey.IsText name) name ∧
        e = .invalidKey name := by
  induction entries generalizing s with
  | nil =>
    constructor
    · intro h
      cases h
    · rintro ⟨name, h, -⟩
      cases h.mem
  | cons entry entries ih =>
    obtain ⟨name, spec⟩ := entry
    simp only [List.map_cons, isFirst_cons_iff, PolicyKey.isText_iff]
    unfold recordEntries
    cases hparse : PolicyKey.parse? name with
    | none => simp [eq_comm]
    | some k => simp [ih, PolicyKey.isText_iff]

theorem toStore_eq (f : SnapshotFile) :
    f.toStore =
      if f.version ≠ 1 then .error (.versionMismatch f.version 1)
      else if Sha256.hex (entriesText f.specs) ≠ f.checksum then
        .error (.checksumMismatch f.checksum (Sha256.hex (entriesText f.specs)))
      else recordEntries f.specs.entries ∅ := rfl

theorem toStore_eq_error_iff {f : SnapshotFile} {e : SnapshotError} :
    f.toStore = .error e ↔ f.Refused e := by
  rw [toStore_eq]
  constructor
  · intro h
    split at h
    · rename_i hversion
      cases h
      exact .version hversion
    · rename_i hversion
      split at h
      · rename_i hchecksum
        cases h
        exact .checksum (not_not.1 hversion) (Ne.symm hchecksum)
      · rename_i hchecksum
        obtain ⟨name, hname, rfl⟩ := recordEntries_eq_error_iff.1 h
        exact .name (not_not.1 hversion) (not_not.1 hchecksum).symm hname
  · intro h
    cases h with
    | version hversion => rw [if_pos hversion]
    | checksum hversion hchecksum => rw [if_neg (not_not.2 hversion), if_pos hchecksum.symm]
    | name hversion hchecksum hname =>
      rw [if_neg (not_not.2 hversion), if_neg (not_not.2 hchecksum.symm)]
      exact recordEntries_eq_error_iff.2 ⟨_, hname, rfl⟩

/-- A file gives a store if and only if nothing is found wrong with it. -/
theorem exists_toStore_iff {f : SnapshotFile} : (∃ s, f.toStore = .ok s) ↔ f.Intact := by
  have hor : (∃ s, f.toStore = .ok s) ↔ ¬ ∃ e, f.toStore = .error e := by
    cases f.toStore <;> simp
  rw [hor]
  simp only [toStore_eq_error_iff]
  -- Each check is passed because its failure would be a reason to refuse the file.
  constructor
  · intro h
    have hversion : f.version = 1 := not_not.1 fun hversion => h ⟨_, .version hversion⟩
    have hchecksum : f.checksum = Sha256.hex (entriesText f.specs) :=
      not_not.1 fun hchecksum => h ⟨_, .checksum hversion hchecksum⟩
    refine ⟨hversion, hchecksum, fun name hname => ?_⟩
    by_contra hnot
    obtain ⟨name', hfirst⟩ : ∃ name',
        IsFirst f.specs.keys (fun name => ¬ PolicyKey.IsText name) name' :=
      exists_isFirst_iff.2 ⟨name, hname, hnot⟩
    exact h ⟨_, .name hversion hchecksum hfirst⟩
  · rintro h ⟨e, hrefused⟩
    cases hrefused with
    | version hversion => exact hversion h.version
    | checksum hversion hchecksum => exact hchecksum h.checksum
    | name hversion hchecksum hname => exact hname.prop (h.names _ hname.mem)

theorem entriesText_inj {specs specs' : SortedMap String PolicySpec}
    (h : entriesText specs = entriesText specs') : specs = specs' := by
  -- The text is read back, and so it cannot be that of other entries.
  have hread := Json.read?_compact specs
  change Json.read? _ (entriesText specs) = some specs at hread
  rw [h] at hread
  exact (Option.some.inj ((Json.read?_compact specs').symm.trans hread)).symm

/-- A collision of the digest between the texts of different entries. -/
def Collides (f f' : SnapshotFile) : Prop :=
  Sha256.Collision (entriesText f.specs).toUTF8.toList (entriesText f'.specs).toUTF8.toList

/-- Intact files of one checksum have the same entries, or their texts are a collision. -/
theorem Intact.specs_eq_or_collides {f f' : SnapshotFile} (h : f.Intact) (h' : f'.Intact)
    (hchecksum : f.checksum = f'.checksum) : f.specs = f'.specs ∨ f.Collides f' := by
  rw [h.checksum, h'.checksum] at hchecksum
  exact (Sha256.eq_or_collision_of_hex_eq hchecksum).imp_left entriesText_inj

/-- Files of one checksum give the same store from the same entries, or their texts are a
collision. -/
theorem toStore_eq_or_collides {f f' : SnapshotFile} {s s' : SnapshotStore}
    (h : f.toStore = .ok s) (h' : f'.toStore = .ok s') (hchecksum : f.checksum = f'.checksum) :
    (f.specs = f'.specs ∧ s = s') ∨ f.Collides f' := by
  have hintact : f.Intact := exists_toStore_iff.1 ⟨s, h⟩
  have hintact' : f'.Intact := exists_toStore_iff.1 ⟨s', h'⟩
  refine (hintact.specs_eq_or_collides hintact' hchecksum).imp_left fun hspecs => ⟨hspecs, ?_⟩
  obtain ⟨-, -, hstore⟩ := toStore_eq_ok_iff.1 h
  obtain ⟨-, -, hstore'⟩ := toStore_eq_ok_iff.1 h'
  rw [hspecs, hstore'] at hstore
  exact (Except.ok.inj hstore).symm

theorem pairwise_names (f : SnapshotFile) : f.specs.keys.Pairwise (· < ·) :=
  f.specs.keys_pairwise.imp compareOfLessAndEq_eq_lt.1

end SnapshotFile

namespace SnapshotStore

open SnapshotFile (entriesText)

section Load

variable {d : Disk} {path text : String} {f : SnapshotFile}

theorem load_eq_ok_iff_of_read? (htext : d.readText path = .ok text)
    (hread : Json.read? SnapshotFile text = some f) {s : SnapshotStore} :
    load d path = .ok s ↔ f.toStore = .ok s := by
  rw [load_of_readText htext, ofFileText_eq_ok_iff]
  simp [hread]

theorem load_eq_error_iff_of_read? (htext : d.readText path = .ok text)
    (hread : Json.read? SnapshotFile text = some f) {e : Error} :
    load d path = .error e ↔ ∃ e', f.Refused e' ∧ e = .snapshot e' := by
  simp only [← SnapshotFile.toStore_eq_error_iff]
  rw [load_of_readText htext, ofFileText, hread]
  cases hstore : f.toStore with
  | ok s => simp [hstore]
  | error e' => simp [hstore, eq_comm]

end Load

/-- A file that is read is loaded if and only if its version is the current one, its checksum is
the digest of its entries, and their names are texts of keys; otherwise the first of these checks
that fails is the error. Different entries have different texts. So a file that is loaded under the
checksum of another one gives the same store, and one with other entries is refused, unless the
texts of the entries are a collision of the digest. What is read is the document that the text
writes in whatever layout; and where this differs only in what the shape of snapshot files leaves
open, the order of fields and fields that are not known, the file is loaded alike. -/
theorem load_detects_changes :
    (∀ (d : Disk) (path text : String) (f : SnapshotFile), d.readText path = .ok text →
      Json.read? SnapshotFile text = some f →
        f.specs.keys.Pairwise (· < ·) ∧ ((∃ s, load d path = .ok s) ↔ f.Intact) ∧
          ∀ e, load d path = .error e ↔ ∃ e', f.Refused e' ∧ e = .snapshot e') ∧
    (∀ text, (Sha256.hex text).length = 64 ∧
      ∀ c ∈ (Sha256.hex text).toList, c ∈ Sha256.hexDigits) ∧
    (∀ specs specs', entriesText specs = entriesText specs' → specs = specs') ∧
    (∀ (d d' : Disk) (path path' text text' : String) (f f' : SnapshotFile) (s : SnapshotStore),
      d.readText path = .ok text → Json.read? SnapshotFile text = some f →
      d'.readText path' = .ok text' → Json.read? SnapshotFile text' = some f' →
      load d path = .ok s → f'.checksum = f.checksum →
        (∀ s', load d' path' = .ok s' → s' = s ∨ f.Collides f') ∧
          ((∃ name, f'.specs.get? name ≠ f.specs.get? name) →
            (∃ e, load d' path' = .error (.snapshot e)) ∨ f.Collides f')) ∧
    (∀ (text : String) (f : SnapshotFile), Json.read? SnapshotFile text = some f ↔
      ∃ j, Json.IsTextOf j text.toList ∧ JsonForm.ofJson? j = some f) ∧
    ∀ (d d' : Disk) (path path' text text' : String) (j j' : Json),
      d.readText path = .ok text → Json.IsTextOf j text.toList →
      d'.readText path' = .ok text' → Json.IsTextOf j' text'.toList →
      Json.Alike (shape SnapshotFile) j j' → load d' path' = load d path := by
  refine ⟨?_, ?_, fun specs specs' => SnapshotFile.entriesText_inj, ?_,
    fun text f => Json.read?_eq_some_iff, ?_⟩
  · intro d path text f htext hread
    refine ⟨f.pairwise_names, ?_, fun e => load_eq_error_iff_of_read? htext hread⟩
    simp only [load_eq_ok_iff_of_read? htext hread]
    exact SnapshotFile.exists_toStore_iff
  · exact fun text => ⟨Sha256.length_hex text, fun c => Sha256.mem_hexDigits_of_mem_hex⟩
  · intro d d' path path' text text' f f' s htext hread htext' hread' hload hchecksum
    rw [load_eq_ok_iff_of_read? htext hread] at hload
    have hloaded : ∀ s', load d' path' = .ok s' →
        (f.specs = f'.specs ∧ s = s') ∨ f.Collides f' := by
      intro s' hload'
      rw [load_eq_ok_iff_of_read? htext' hread'] at hload'
      exact SnapshotFile.toStore_eq_or_collides hload hload' hchecksum.symm
    constructor
    · intro s' hload'
      exact (hloaded s' hload').imp_left fun ⟨_, hstore⟩ => hstore.symm
    · rintro ⟨name, hname⟩
      cases hload' : load d' path' with
      | ok s' =>
        -- What is loaded without a collision has the entries of the first file.
        refine .inr ((hloaded s' hload').resolve_left ?_)
        rintro ⟨hspecs, -⟩
        exact hname (by rw [hspecs])
      | error e =>
        obtain ⟨e', -, rfl⟩ := (load_eq_error_iff_of_read? htext' hread').1 hload'
        exact .inl ⟨e', rfl⟩
  · intro d d' path path' text text' j j' htext hj htext' hj' halike
    rw [load_of_readText htext, load_of_readText htext', ofFileText, ofFileText,
      Json.read?_eq_of_alike hj hj' halike]

/-- A disk with one snapshot file of a text. -/
def diskWith (text : String) : Disk := ⟨[(["snapshots.json"], .file text.toUTF8 0o600)], []⟩

theorem readText_diskWith (text : String) :
    (diskWith text).readText "snapshots.json" = .ok text :=
  Disk.readText_eq_ok_iff.2 rfl

/-- The file of one policy's snapshot, with a checksum that may be another one's. -/
def fileOf (block checksumBlock : String) : SnapshotFile :=
  let specs (block : String) : SortedMap String PolicySpec :=
    SortedMap.ofList [("a/b", ⟨[⟨[⟨block, []⟩], []⟩], []⟩)]
  ⟨1, Sha256.hex (entriesText (specs checksumBlock)), specs block⟩

/-- A file's document with its fields in another order and one more member. -/
def rearranged (f : SnapshotFile) : Json :=
  .object [(some "note", .null), (some "specs", toJson f.specs),
    (some "checksum", toJson f.checksum), (some "version", toJson f.version)]

theorem alike_rearranged (f : SnapshotFile) :
    Json.Alike (shape SnapshotFile) (toJson f) (rearranged f) := by
  refine .trans _ _ _ (.rel _ _ (.order ?_)) (.rel _ _ (.unknown (by decide)))
  exact (List.reverse_perm _).symm

theorem not_collides_of_block :
    ¬ (fileOf "10.0.0.0/8" "10.0.0.0/8").Collides (fileOf "10.0.0.0/9" "10.0.0.0/8") := by
  rintro ⟨-, hdigest⟩
  revert hdigest
  decide +kernel

/-- A file is loaded; with its fields in another order and one member more it is loaded as the same
store, and with another block under the checksum it is refused. -/
theorem load_detects_another_block :
    let f := fileOf "10.0.0.0/8" "10.0.0.0/8"
    let f' := fileOf "10.0.0.0/9" "10.0.0.0/8"
    ∃ s, load (diskWith (toJson f).wide) "snapshots.json" = .ok s ∧
      load (diskWith (rearranged f).compact) "snapshots.json" = .ok s ∧
        ∃ e, load (diskWith (toJson f').compact) "snapshots.json" = .error (.snapshot e) := by
  intro f f'
  obtain ⟨hchecks, -, -, hsame, -, halike⟩ := load_detects_changes
  have hintact : f.Intact := by
    refine ⟨rfl, rfl, ?_⟩
    have hkeys : f.specs.keys = ["a/b"] := by decide +kernel
    rw [hkeys]
    simpa using ⟨"a", "b", rfl, by decide, by decide, by decide⟩
  obtain ⟨-, hloaded, -⟩ := hchecks _ _ _ f (readText_diskWith _) (Json.read?_wide f)
  obtain ⟨s, hs⟩ := hloaded.2 hintact
  refine ⟨s, hs, ?_, ?_⟩
  · rw [← hs]
    exact halike _ _ _ _ _ _ _ _ (readText_diskWith _)
      (Json.parseChars_eq_some_iff.1 (Json.parse_wide _)) (readText_diskWith _)
      (Json.parseChars_eq_some_iff.1 (Json.parse_compact _)) (alike_rearranged f)
  · obtain ⟨-, hother⟩ := hsame _ _ _ _ _ _ f f' s (readText_diskWith _) (Json.read?_wide f)
      (readText_diskWith _) (Json.read?_compact f') hs rfl
    exact (hother ⟨"a/b", by decide +kernel⟩).resolve_right not_collides_of_block

end SnapshotStore

end ClusterFirewall
