import ClusterFirewall.Proofs.Disk.Contents
import ClusterFirewall.Proofs.Policy.Form
import ClusterFirewall.Proofs.SortedMap
import ClusterFirewall.Proofs.Text.Pieces
import ClusterFirewall.Snapshot

/-!
# Loading snapshots that were saved

A snapshot file lists its entries under the texts of their keys. The text of a key is cut at its
first slash, so that it gives the key back only if the namespace holds no slash, and it is refused
where a part is empty. Main statement: `ofFileText_fileText_iff`, the file of a store gives the
store back if and only if the text of every key gives the key back.
-/

namespace ClusterFirewall

/-! ## Keys -/

namespace PolicyKey

/-- The text of a key gives the key back. -/
structure Writable (k : PolicyKey) : Prop where
  space_ne : k.space ≠ ""
  no_slash : '/' ∉ k.space.toList
  name_ne : k.name ≠ ""

instance (k : PolicyKey) : Decidable k.Writable :=
  decidable_of_iff (k.space ≠ "" ∧ '/' ∉ k.space.toList ∧ k.name ≠ "")
    ⟨fun ⟨hspace, hslash, hname⟩ => ⟨hspace, hslash, hname⟩,
      fun h => ⟨h.space_ne, h.no_slash, h.name_ne⟩⟩

theorem parse?_text {k : PolicyKey} (h : k.Writable) : parse? k.text = some k := by
  have htext : k.text.toList = k.space.toList ++ '/' :: k.name.toList := by simp [text]
  have hspace : k.space.toList ≠ [] := by simpa using h.space_ne
  have hname : k.name.toList ≠ [] := by simpa using h.name_ne
  rw [parse?, htext, Text.splitOnce_append h.no_slash]
  simp [hspace, hname]

theorem text_inj {k k' : PolicyKey} (h : k.Writable) (h' : k'.Writable) (htext : k.text = k'.text) :
    k = k' := by
  have hparse := parse?_text h
  rw [htext, parse?_text h'] at hparse
  exact (Option.some.inj hparse).symm

/-- A text that is read as a key is the text of that key, and gives it back. -/
theorem of_parse? {s : String} {k : PolicyKey} (h : parse? s = some k) :
    k.text = s ∧ k.Writable := by
  unfold parse? at h
  split at h
  · rename_i space name hcut
    split at h
    · cases h
    · rename_i hempty
      obtain rfl := Option.some.inj h
      obtain ⟨hs, hslash⟩ := Text.of_splitOnce hcut
      simp only [Bool.or_eq_true, List.isEmpty_iff, not_or] at hempty
      refine ⟨?_, ?_, ?_, ?_⟩
      · apply String.toList_inj.1
        simp [text, hs]
      · simpa using hempty.1
      · simpa using hslash
      · simpa using hempty.2
  · cases h

end PolicyKey

/-! ## Files -/

instance : JsonForm.Lawful (SortedMap String PolicySpec) where
  ofJson?_toJson specs := by
    have hentries : (specs.entries.map fun e => (e.1, toJson e.2)).mapM
        (fun m => (JsonForm.ofJson? m.2).map fun spec : PolicySpec => (m.1, spec)) =
          some specs.entries := by
      induction specs.entries with
      | nil => rfl
      | cons e rest ih => simp [ih]
    show specsOfJson? (specsToJson specs) = some specs
    simp only [specsToJson, Json.record, specsOfJson?, namedMembers?_record, Option.bind_eq_bind,
      Option.bind_some, hentries, SortedMap.ofList_entries]
    rfl
  toJson_ne_null _ := nofun

instance : JsonForm.Lawful SnapshotFile where
  ofJson?_toJson f := by
    obtain ⟨r, hfields, hlookup⟩ : ∃ r,
        (toJson f).fields? ["version", "checksum", "specs"] = some r ∧
          ∀ name, r.given.lookup name = _ :=
      Json.exists_fields (by decide) (.refl _)
    have hversion : r.required "version" = some f.version :=
      Fields.required_of_lookup (by simp [hlookup])
    have hchecksum : r.required "checksum" = some f.checksum :=
      Fields.required_of_lookup (by simp [hlookup, List.lookup_cons])
    have hspecs : r.required "specs" = some f.specs :=
      Fields.required_of_lookup (by simp [hlookup, List.lookup_cons])
    simp [JsonForm.ofJson?, hfields, hversion, hchecksum, hspecs]
  toJson_ne_null _ := nofun

namespace SnapshotFile

/-- Entries are recorded if and only if their names are texts of keys that give the keys back. -/
theorem recordEntries_eq_ok_iff {entries : List (String × PolicySpec)} {s s' : SnapshotStore} :
    recordEntries entries s = .ok s' ↔
      ∃ bindings : List (PolicyKey × PolicySpec),
        entries = bindings.map (fun e => (e.1.text, e.2)) ∧ (∀ e ∈ bindings, e.1.Writable) ∧
          s' = s.insertMany bindings := by
  induction entries generalizing s with
  | nil =>
    constructor
    · intro h
      obtain rfl := Except.ok.inj h
      exact ⟨[], rfl, by simp, rfl⟩
    · rintro ⟨bindings, hbindings, -, rfl⟩
      obtain rfl := List.map_eq_nil_iff.1 hbindings.symm
      rfl
  | cons e entries ih =>
    obtain ⟨name, spec⟩ := e
    constructor
    · intro h
      unfold recordEntries at h
      split at h
      · cases h
      · rename_i k hparse
        obtain ⟨rfl, hk⟩ := PolicyKey.of_parse? hparse
        obtain ⟨bindings, rfl, hwritable, rfl⟩ := ih.1 h
        exact ⟨(k, spec) :: bindings, rfl, List.forall_mem_cons.2 ⟨hk, hwritable⟩, rfl⟩
    · rintro ⟨bindings, hbindings, hwritable, rfl⟩
      obtain ⟨⟨k, spec'⟩, rest, rfl, he, hrest⟩ := List.map_eq_cons_iff.1 hbindings.symm
      obtain ⟨rfl, rfl⟩ := Prod.mk.inj he
      obtain ⟨hk, hwritable⟩ := List.forall_mem_cons.1 hwritable
      simp only [recordEntries, PolicyKey.parse?_text hk]
      exact ih.2 ⟨rest, hrest.symm, hwritable, rfl⟩

/-- A file is accepted if version, checksum and names are in order. -/
theorem toStore_eq_ok_iff {f : SnapshotFile} {s : SnapshotStore} :
    f.toStore = .ok s ↔ f.version = currentVersion ∧ checksumOf f.specs = f.checksum ∧
      recordEntries f.specs.entries ∅ = .ok s := by
  unfold toStore
  split
  · simp [*]
  · split <;> simp_all

theorem toStore_ofStore (s : SnapshotStore) :
    (ofStore s).toStore = recordEntries (ofStore s).specs.entries ∅ := by
  simp [toStore, ofStore]

/-- The entries of a store's file are those of the store under the texts of their keys. -/
theorem mem_specs_ofStore {s : SnapshotStore} (hkeys : ∀ k ∈ s.keys, k.Writable) {name : String}
    {spec : PolicySpec} : (name, spec) ∈ (ofStore s).specs.entries ↔
      ∃ k, (k, spec) ∈ s.entries ∧ k.text = name := by
  -- Keys that their texts give back have different texts, so no entry replaces another one.
  have hnames : ((s.entries.map fun e => (e.1.text, e.2)).map (·.1)).Nodup := by
    have hnodup : (s.keys.map PolicyKey.text).Nodup :=
      s.nodup_keys.map_on fun k hk k' hk' htext =>
        PolicyKey.text_inj (hkeys k hk) (hkeys k' hk') htext
    rw [SortedMap.keys, List.map_map] at hnodup
    rw [List.map_map]
    exact hnodup
  rw [← SortedMap.get?_eq_some_iff, ofStore, SortedMap.get?_ofList_eq_some_iff hnames, List.mem_map]
  simp only [Prod.exists, Prod.mk.injEq]
  constructor
  · rintro ⟨k, spec', hmem, rfl, rfl⟩
    exact ⟨k, hmem, rfl⟩
  · rintro ⟨k, hmem, rfl⟩
    exact ⟨k, spec, hmem, rfl, rfl⟩

/-- Entries whose names are texts of keys, as bindings of these keys in the same order. -/
theorem exists_bindings {entries : List (String × PolicySpec)}
    (hnames : ∀ e ∈ entries, ∃ k : PolicyKey, k.text = e.1 ∧ k.Writable) :
    ∃ bindings : List (PolicyKey × PolicySpec),
      entries = bindings.map (fun e => (e.1.text, e.2)) ∧ ∀ e ∈ bindings, e.1.Writable := by
  induction entries with
  | nil => exact ⟨[], rfl, by simp⟩
  | cons e entries ih =>
    obtain ⟨⟨k, hk, hwritable⟩, hrest⟩ := List.forall_mem_cons.1 hnames
    obtain ⟨bindings, rfl, hall⟩ := ih hrest
    refine ⟨(k, e.2) :: bindings, ?_, List.forall_mem_cons.2 ⟨hwritable, hall⟩⟩
    rw [List.map_cons, hk]

/-- The names of a file do not repeat, and so neither do the keys that they are the texts of. -/
theorem nodup_bindings {specs : SortedMap String PolicySpec}
    {bindings : List (PolicyKey × PolicySpec)}
    (h : specs.entries = bindings.map fun e => (e.1.text, e.2)) : (bindings.map (·.1)).Nodup := by
  have hnames := specs.nodup_keys
  rw [SortedMap.keys, h, List.map_map] at hnames
  have htexts : ((bindings.map (·.1)).map PolicyKey.text).Nodup := by
    rw [List.map_map]
    exact hnames
  exact htexts.of_map

/-- The bindings that the names of a store's file stand for are those of the store. -/
theorem mem_bindings_iff {s : SnapshotStore} (hkeys : ∀ k ∈ s.keys, k.Writable)
    {bindings : List (PolicyKey × PolicySpec)}
    (hbindings : (ofStore s).specs.entries = bindings.map fun e => (e.1.text, e.2))
    (hwritable : ∀ e ∈ bindings, e.1.Writable) (k : PolicyKey) (spec : PolicySpec) :
    (k, spec) ∈ bindings ↔ (k, spec) ∈ s.entries := by
  have hstore : ∀ e ∈ s.entries, e.1.Writable := fun e he => hkeys e.1 (List.mem_map_of_mem he)
  have hfile : (k.text, spec) ∈ (ofStore s).specs.entries ↔
      ∃ k', (k', spec) ∈ bindings ∧ k'.text = k.text := by
    rw [hbindings]
    simp
  -- Both sides are compared by the texts of the keys, which are those of one key only.
  constructor
  · intro hk
    obtain ⟨k', hk', htext⟩ := (mem_specs_ofStore hkeys).1 (hfile.2 ⟨k, hk, rfl⟩)
    obtain rfl := PolicyKey.text_inj (hstore _ hk') (hwritable _ hk) htext
    exact hk'
  · intro hk
    obtain ⟨k', hk', htext⟩ := hfile.1 ((mem_specs_ofStore hkeys).2 ⟨k, hk, rfl⟩)
    obtain rfl := PolicyKey.text_inj (hwritable _ hk') (hstore _ hk) htext
    exact hk'

/-- A store whose keys are given back by their texts is given back by its file. -/
theorem toStore_ofStore_of_writable {s : SnapshotStore} (hkeys : ∀ k ∈ s.keys, k.Writable) :
    (ofStore s).toStore = .ok s := by
  obtain ⟨bindings, hbindings, hwritable⟩ : ∃ bindings : List (PolicyKey × PolicySpec),
      (ofStore s).specs.entries = bindings.map (fun e => (e.1.text, e.2)) ∧
        ∀ e ∈ bindings, e.1.Writable := by
    apply exists_bindings
    intro e he
    obtain ⟨k, hk, htext⟩ := (mem_specs_ofStore hkeys).1 he
    exact ⟨k, htext, hkeys k (List.mem_map_of_mem hk)⟩
  have hnodup : (bindings.map (·.1)).Nodup := nodup_bindings hbindings
  rw [toStore_ofStore, recordEntries_eq_ok_iff]
  refine ⟨bindings, hbindings, hwritable, ?_⟩
  -- The file has its bindings in the order of the texts, so that only the look-ups agree.
  apply SortedMap.ext_get?
  intro k
  apply Option.ext
  intro spec
  rw [SortedMap.get?_eq_some_iff]
  change (k, spec) ∈ s.entries ↔ (SortedMap.ofList bindings).get? k = some spec
  rw [SortedMap.get?_ofList_eq_some_iff hnodup]
  exact (mem_bindings_iff hkeys hbindings hwritable k spec).symm

/-- What a file gives has keys that their texts give back. -/
theorem writable_of_toStore {f : SnapshotFile} {s : SnapshotStore} (h : f.toStore = .ok s) :
    ∀ k ∈ s.keys, k.Writable := by
  obtain ⟨-, -, hrecord⟩ := toStore_eq_ok_iff.1 h
  obtain ⟨bindings, -, hwritable, rfl⟩ := recordEntries_eq_ok_iff.1 hrecord
  -- A store that is read from nothing has no other keys than those of the file.
  intro k hk
  by_contra hnot
  have hnone : k ∉ bindings.map (·.1) := by
    intro hmem
    obtain ⟨e, he, rfl⟩ := List.mem_map.1 hmem
    exact hnot (hwritable e he)
  rw [SortedMap.mem_keys_iff, SortedMap.get?_insertMany_of_not_mem _ hnone] at hk
  cases hk

end SnapshotFile

namespace SnapshotStore

theorem ofFileText_eq_ok_iff {text : String} {s : SnapshotStore} :
    ofFileText text = .ok s ↔
      ∃ f, Json.read? SnapshotFile text = some f ∧ f.toStore = .ok s := by
  unfold ofFileText
  cases Json.read? SnapshotFile text with
  | none => simp
  | some f => cases hf : f.toStore <;> simp [hf]

/-- The text of a store's file is read as the file. -/
theorem read?_fileText (s : SnapshotStore) :
    Json.read? SnapshotFile s.fileText = some (SnapshotFile.ofStore s) := Json.read?_wide _

/-- The file of a store gives the store back if and only if the text of every key gives the key
back. -/
theorem ofFileText_fileText_iff (s : SnapshotStore) :
    ofFileText s.fileText = .ok s ↔ ∀ k ∈ s.keys, k.Writable := by
  have hread : ofFileText s.fileText = .ok s ↔ (SnapshotFile.ofStore s).toStore = .ok s := by
    simp [ofFileText_eq_ok_iff, s.read?_fileText]
  rw [hread]
  exact ⟨SnapshotFile.writable_of_toStore, SnapshotFile.toStore_ofStore_of_writable⟩

/-- The file of a store is refused for the first name, in the file's order, that is no key. -/
theorem ofFileText_fileText_of_error {s : SnapshotStore} {e : SnapshotError}
    (h : SnapshotFile.recordEntries (SnapshotFile.ofStore s).specs.entries ∅ = .error e) :
    ofFileText s.fileText = .error (.snapshot e) := by
  simp only [ofFileText, fileText, Json.read?_wide, SnapshotFile.toStore_ofStore, h]

/-- Loading reads the store of the file's text. -/
theorem load_of_readText {d : Disk} {path text : String} (h : d.readText path = .ok text) :
    load d path = ofFileText text := by
  rw [load, h]

theorem load_of_bytes? {d : Disk} {path text : String} (h : d.bytes? path = some text.toUTF8) :
    load d path = ofFileText text :=
  load_of_readText (Disk.readText_eq_ok_iff.2 h)

/-- Saving writes the text of the store's file. -/
theorem readText_save {s : SnapshotStore} {d d' : Disk} {path : String}
    (h : s.save d path = .ok d') : d'.readText path = .ok s.fileText :=
  Disk.readText_eq_ok_iff.2 (Disk.bytes?_writeAtomic (orFault_eq_ok_iff.1 h))

end SnapshotStore

end ClusterFirewall
