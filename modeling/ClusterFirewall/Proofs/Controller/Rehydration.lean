import ClusterFirewall.Proofs.Controller.Saving
import ClusterFirewall.Proofs.Snapshot.Reloading

/-!
# Starting again from saved snapshots

Every policy of a cluster is recorded when its ruleset is accepted, those that validation rejects
among them. A rejected policy may have an empty name, or a namespace that is empty or holds a slash,
and then the text of its key in the snapshot file is refused or is read as another key. Main
statement: `load_saved_iff`, the file that was saved gives the snapshots back if and only if no such
key was among the snapshots at the start or in a cluster whose ruleset was accepted.
-/

namespace ClusterFirewall

/-! ## The keys of the snapshots -/

theorem History.lastWith?_eq_none_iff {h : History} {k : PolicyKey} :
    h.lastWith? k = none ↔ ∀ a ∈ h.accepted, k ∉ a.cluster.keys := by
  simp [lastWith?]

/-- Snapshots belong to keys that were there at the start or in a cluster whose ruleset was
accepted. -/
theorem History.RecordedFrom.mem_keys_iff {h : History} {start : SnapshotStore}
    (hr : h.RecordedFrom start) {k : PolicyKey} :
    k ∈ h.store.keys ↔ k ∈ start.keys ∨ ∃ a ∈ h.accepted, k ∈ a.cluster.keys := by
  rw [SortedMap.mem_keys_iff, SortedMap.mem_keys_iff]
  cases hlast : h.lastWith? k with
  | none =>
    rw [hr.kept k hlast]
    have hnone := History.lastWith?_eq_none_iff.1 hlast
    constructor
    · exact .inl
    · rintro (hk | ⟨a, ha, hk⟩)
      · exact hk
      · exact absurd hk (hnone a ha)
  | some a =>
    obtain ⟨q, -, hget⟩ := hr.recorded k a hlast
    have hk : k ∈ a.cluster.keys := by simpa using List.find?_some hlast
    simp only [hget, Option.isSome_some, true_iff]
    exact .inr ⟨a, History.mem_of_lastWith? hlast, hk⟩

/-! ## Loading after a success -/

namespace Controller

variable {σ α : Type}

/-- After a success whose snapshots were saved, their file gives them back if and only if all keys
of the start and of the clusters with accepted rulesets are given back by their texts. -/
theorem load_saved_iff (c : Controller σ α) (start : SnapshotStore) (triggers : List (Trigger σ α))
    (t : Trigger σ α) {path : String} (hpath : c.snapshotPath = some path)
    (hlog : ∀ log, c.auditPath = some log → Disk.Apart log path)
    (hsuccess : (c.react (c.run start triggers).store t).1.isSuccess)
    (hsaves : c.Saves t.now t.fetched (t.state (c.run start triggers).store) path) :
    SnapshotStore.load (c.react (c.run start triggers).store t).2.disk path =
        .ok (c.react (c.run start triggers).store t).2.store ↔
      (∀ k ∈ start.keys, k.Writable) ∧
        ∀ a ∈ (c.run start (triggers ++ [t])).accepted, ∀ k ∈ a.cluster.keys, k.Writable := by
  have hrun : c.run start (triggers ++ [t]) = c.follow (c.run start triggers) t := by
    rw [run, run, List.foldl_append]
    rfl
  have hrecorded : (c.run start (triggers ++ [t])).RecordedFrom start := c.run_recordedFrom start _
  have hbytes : (c.react (c.run start triggers).store t).2.disk.bytes? path =
      some (c.react (c.run start triggers).store t).2.store.fileText.toUTF8 := by
    rw [react] at hsuccess ⊢
    exact c.bytes?_of_saves hpath hlog hsuccess hsaves
  rw [SnapshotStore.load_of_bytes? hbytes, SnapshotStore.ofFileText_fileText_iff]
  have hstore : (c.react (c.run start triggers).store t).2.store =
      (c.run start (triggers ++ [t])).store := by
    rw [hrun]
    rfl
  rw [hstore]
  -- The keys of the store are those of the start and those of the clusters.
  simp only [hrecorded.mem_keys_iff]
  constructor
  · intro hkeys
    exact ⟨fun k hk => hkeys k (.inl hk), fun a ha k hk => hkeys k (.inr ⟨a, ha, hk⟩)⟩
  · rintro ⟨hstart, haccepted⟩ k (hk | ⟨a, ha, hk⟩)
    · exact hstart k hk
    · exact haccepted a ha k hk

/-- A valid policy and one that is rejected for its namespace are saved and loaded again. -/
theorem reloaded_with_rejected_policy :
    let stranger := { blockAndName "web" with space := "default" }
    let t := Trigger.finding [blockAndName "web", stranger] [] (knowing ["a"])
    let c := keeping "snapshots.json" "audit.log"
    (c.react (c.run ∅ []).store t).1.isSuccess ∧ stranger.isValid = false ∧
      SnapshotStore.load (c.react (c.run ∅ []).store t).2.disk "snapshots.json" =
        .ok (c.react (c.run ∅ []).store t).2.store := by
  intro stranger t c
  have hsuccess : (c.react (c.run ∅ []).store t).1.isSuccess ∧
      c.Saves t.now t.fetched (t.state (c.run ∅ []).store) "snapshots.json" := by
    decide +kernel
  have hkeys : ∀ a ∈ (c.run ∅ ([] ++ [t])).accepted, ∀ k ∈ a.cluster.keys, k.Writable := by
    decide +kernel
  refine ⟨hsuccess.1, by decide +kernel, ?_⟩
  exact (c.load_saved_iff ∅ [] t rfl keeping_leavesAlone.log hsuccess.1 hsuccess.2).2
    ⟨by decide, hkeys⟩

/-- A policy without a name, or with a slash in its namespace, is rejected and recorded all the
same. The snapshots that are saved then do not come back: the file of the first is refused, that of
the second is read as a policy of another name. -/
theorem not_reloaded_with_unwritable_key :
    let nameless := Trigger.finding [blockAndName ""] [] (knowing ["a"])
    let nested := Trigger.finding [{ blockAndName "web" with space := "a/b" }] [] (knowing ["a"])
    let c := keeping "snapshots.json" "audit.log"
    (∀ t ∈ [nameless, nested], (c.react (c.run ∅ []).store t).1.isSuccess ∧
      c.Saves t.now t.fetched (t.state (c.run ∅ []).store) "snapshots.json" ∧
        SnapshotStore.load (c.react (c.run ∅ []).store t).2.disk "snapshots.json" ≠
          .ok (c.react (c.run ∅ []).store t).2.store) ∧
      SnapshotStore.load (c.react (c.run ∅ []).store nameless).2.disk "snapshots.json" =
        .error (.snapshot (.invalidKey "firewall/")) := by
  intro nameless nested c
  have hsuccess : ∀ t ∈ [nameless, nested], (c.react (c.run ∅ []).store t).1.isSuccess ∧
      c.Saves t.now t.fetched (t.state (c.run ∅ []).store) "snapshots.json" := by
    decide +kernel
  have hkeys : ∀ t ∈ [nameless, nested],
      ¬ ∀ a ∈ (c.run ∅ ([] ++ [t])).accepted, ∀ k ∈ a.cluster.keys, k.Writable := by
    decide +kernel
  have hrecord : SnapshotFile.recordEntries
      (SnapshotFile.ofStore (c.react (c.run ∅ []).store nameless).2.store).specs.entries ∅ =
        .error (.invalidKey "firewall/") := by
    decide +kernel
  constructor
  · -- If the snapshots came back, then all keys of the clusters would.
    intro t ht
    obtain ⟨happlied, hsaves⟩ := hsuccess t ht
    refine ⟨happlied, hsaves, ?_⟩
    intro hload
    exact hkeys t ht
      ((c.load_saved_iff ∅ [] t rfl keeping_leavesAlone.log happlied hsaves).1 hload).2
  · obtain ⟨happlied, hsaves⟩ := hsuccess nameless List.mem_cons_self
    have hbytes := c.bytes?_of_saves rfl keeping_leavesAlone.log happlied hsaves
    rw [react] at hrecord ⊢
    rw [SnapshotStore.load_of_bytes? hbytes]
    exact SnapshotStore.ofFileText_fileText_of_error hrecord

end Controller

end ClusterFirewall
