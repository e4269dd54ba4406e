import ClusterFirewall.Proofs.Snapshot.Reloading

/-!
# Snapshot files that are accepted

A file lists its entries in the order of their names, a store in the order of its keys, namespaces
first: `a./x` comes before `a/x` in a file and after it in a store. Apart from this order an
accepted file is the file of the store that it gives (`ofStore_of_toStore`), so that writing the
store again keeps version, checksum and entries, and only the layout of the text may change.

Main statement: `loaded_of_saved_and_saved_of_loaded`, from stores to texts and back.
-/

namespace ClusterFirewall

namespace SnapshotFile

/-- The store of an accepted file has the entries of the file under the keys that their names
write, in the order of the keys. -/
theorem entries_perm_of_toStore {f : SnapshotFile} {s : SnapshotStore} (h : f.toStore = .ok s) :
    (s.entries.map fun e => (e.1.text, e.2)).Perm f.specs.entries := by
  obtain ⟨-, -, hrecord⟩ := toStore_eq_ok_iff.1 h
  obtain ⟨bindings, hbindings, -, rfl⟩ := recordEntries_eq_ok_iff.1 hrecord
  rw [hbindings]
  exact (SortedMap.entries_ofList_perm (nodup_bindings hbindings)).map _

/-- An accepted file is the file of the store that it gives. -/
theorem ofStore_of_toStore {f : SnapshotFile} {s : SnapshotStore} (h : f.toStore = .ok s) :
    ofStore s = f := by
  obtain ⟨hversion, hchecksum, -⟩ := toStore_eq_ok_iff.1 h
  have hspecs : SortedMap.ofList (s.entries.map fun e => (e.1.text, e.2)) = f.specs :=
    SortedMap.ofList_of_perm (entries_perm_of_toStore h)
  obtain ⟨version, checksum, specs⟩ := f
  simp only [ofStore, hspecs, mk.injEq, and_true]
  exact ⟨hversion.symm, hchecksum⟩

end SnapshotFile

namespace SnapshotStore

/-- Saving writes the text of a store and loading reads it back, provided the texts of the keys
give the keys back. A text that loading accepts gives only such keys; its entries are those of the
store, and saving that store writes a file with the same version, checksum and entries, which is
loaded as the same store. -/
theorem loaded_of_saved_and_saved_of_loaded :
    (∀ (s : SnapshotStore) (d d' : Disk) (path : String), s.save d path = .ok d' →
      d'.readText path = .ok s.fileText) ∧
    (∀ (d : Disk) (path text : String), d.readText path = .ok text →
      load d path = ofFileText text) ∧
    (∀ s : SnapshotStore, (∀ k ∈ s.keys, k.Writable) → ofFileText s.fileText = .ok s) ∧
    ∀ (text : String) (s : SnapshotStore), ofFileText text = .ok s →
      (∀ k ∈ s.keys, k.Writable) ∧
      (∃ f, Json.read? SnapshotFile text = some f ∧
        (s.entries.map fun e => (e.1.text, e.2)).Perm f.specs.entries ∧
          Json.read? SnapshotFile s.fileText = some f) ∧
      ofFileText s.fileText = .ok s := by
  refine ⟨fun s d d' path => readText_save, fun d path text => load_of_readText,
    fun s => s.ofFileText_fileText_iff.2, ?_⟩
  intro text s haccepted
  obtain ⟨f, hread, hstore⟩ := ofFileText_eq_ok_iff.1 haccepted
  have hkeys : ∀ k ∈ s.keys, k.Writable := SnapshotFile.writable_of_toStore hstore
  have hsaved : Json.read? SnapshotFile s.fileText = some f := by
    rw [read?_fileText, SnapshotFile.ofStore_of_toStore hstore]
  exact ⟨hkeys, ⟨f, hread, SnapshotFile.entries_perm_of_toStore hstore, hsaved⟩,
    s.ofFileText_fileText_iff.2 hkeys⟩

/-- The snapshots of two namespaces whose order in the file is not that of the keys. -/
def ofTwoSpaces : SnapshotStore :=
  SortedMap.ofList [(⟨"a", "b"⟩, ⟨[⟨[⟨"10.0.0.0/8", []⟩], []⟩], []⟩),
    (⟨"a.", "b"⟩, ⟨[], [⟨[], [⟨"é\n\"", "", ["s", "s"]⟩], [.single .sctp 9]⟩]⟩)]

/-- Two namespaces change their order between store and file. The file that is saved is loaded, and
so is its compact text, which saving would not write; what that gives is saved with the same
checksum. -/
theorem loaded_with_two_spaces :
    let s := ofTwoSpaces
    let f := SnapshotFile.ofStore s
    s.keys = [⟨"a", "b"⟩, ⟨"a.", "b"⟩] ∧ f.specs.keys = ["a./b", "a/b"] ∧
      (∃ d, s.save ⟨[], []⟩ "snapshots.json" = .ok d ∧ load d "snapshots.json" = .ok s) ∧
        ofFileText (toJson f).compact = .ok s ∧
          Json.read? SnapshotFile s.fileText = Json.read? SnapshotFile (toJson f).compact := by
  intro s f
  have hkeys : ∀ k ∈ s.keys, k.Writable := by decide
  have hsaves : (s.save ⟨[], []⟩ "snapshots.json").isOk := by decide +kernel
  obtain ⟨hsave, hload, hstore, haccepted⟩ := loaded_of_saved_and_saved_of_loaded
  have hcompact : ofFileText (toJson f).compact = .ok s :=
    ofFileText_eq_ok_iff.2
      ⟨f, Json.read?_compact f, SnapshotFile.toStore_ofStore_of_writable hkeys⟩
  obtain ⟨-, ⟨f', hread, -, hsaved⟩, -⟩ := haccepted _ _ hcompact
  refine ⟨by decide, by decide +kernel, ?_, hcompact, hsaved.trans hread.symm⟩
  cases hd : s.save ⟨[], []⟩ "snapshots.json" with
  | error e =>
    rw [hd] at hsaves
    cases hsaves
  | ok d => exact ⟨d, rfl, (hload _ _ _ (hsave _ _ _ _ hd)).trans (hstore s hkeys)⟩

end SnapshotStore

end ClusterFirewall
