import ClusterFirewall.Proofs.Controller.History
import ClusterFirewall.Proofs.Disk.Contents

/-!
# The snapshots and their file

The snapshots change only when a ruleset was accepted, and so does their file. What a controller
remembers of a key is therefore decided by the last accepted ruleset whose cluster had a policy of
that key, and by the snapshots at the start if there is none.

The controller writes two files itself, the snapshots and the audit log, and the applier may write
others. `Controller.LeavesAlone` says of a path that neither the log nor the applier gets in its
way. Main statement: `store_eq_history`, what a run leaves in the snapshots and in their file.
-/

namespace ClusterFirewall

/-! ## The last policy of a key -/

/-- The policy of a key that a build records last. -/
def Build.lastOf? (b : Build) (k : PolicyKey) : Option Policy :=
  b.policies.reverse.find? fun q => decide (q.key = k)

theorem Build.Of.isSome_lastOf?_iff {b : Build} {cluster : ClusterState} (h : b.Of cluster)
    {k : PolicyKey} : (b.lastOf? k).isSome ↔ k ∈ cluster.keys := by
  rw [Build.lastOf?, List.find?_isSome, ClusterState.keys, ← h.keys_perm.mem_iff, List.mem_map]
  simp only [List.mem_reverse, decide_eq_true_eq]

/-- The snapshots come from the last accepted rulesets, or else from the start. -/
structure History.RecordedFrom (h : History) (start : SnapshotStore) : Prop where
  built : ∀ a ∈ h.accepted, a.build.Of a.cluster
  kept : ∀ k, h.lastWith? k = none → h.store.get? k = start.get? k
  recorded : ∀ k a, h.lastWith? k = some a →
    ∃ q, a.build.lastOf? k = some q ∧ h.store.get? k = some q.spec

theorem Build.Of.lastOf?_eq_none {b : Build} {cluster : ClusterState} (h : b.Of cluster)
    {k : PolicyKey} (hk : k ∉ cluster.keys) : b.lastOf? k = none :=
  Option.not_isSome_iff_eq_none.1 (mt h.isSome_lastOf?_iff.1 hk)

theorem History.recordedFrom_start (start : SnapshotStore) :
    RecordedFrom ⟨start, []⟩ start where
  built := by simp
  kept := fun _ _ => rfl
  recorded := by simp [lastWith?]

/-- A ruleset that was accepted just now decides about the keys of its cluster, and no others. -/
theorem History.RecordedFrom.accept {h : History} {start : SnapshotStore}
    (hr : h.RecordedFrom start) {cluster : ClusterState} {b : Build} (hbuilt : b.Of cluster) :
    RecordedFrom ⟨h.store.recordAll b.policies, ⟨cluster, b⟩ :: h.accepted⟩ start := by
  have hget : ∀ k, (h.store.recordAll b.policies).get? k =
      ((b.lastOf? k).map (·.spec)).or (h.store.get? k) :=
    fun k => SnapshotStore.get?_recordAll h.store b.policies k
  constructor
  case built =>
    intro a ha
    rcases List.mem_cons.1 ha with rfl | ha
    · exact hbuilt
    · exact hr.built a ha
  case kept =>
    intro k hk
    rw [lastWith?_cons _ h.store] at hk
    by_cases hmem : k ∈ cluster.keys
    · rw [if_pos hmem] at hk
      cases hk
    · rw [if_neg hmem] at hk
      rw [hget, hbuilt.lastOf?_eq_none hmem]
      exact hr.kept k hk
  case recorded =>
    -- A key of the cluster has its last policy in the new build, any other one where it had it.
    intro k a ha
    rw [lastWith?_cons _ h.store] at ha
    by_cases hmem : k ∈ cluster.keys
    · rw [if_pos hmem] at ha
      obtain rfl := Option.some.inj ha
      obtain ⟨q, hq⟩ := Option.isSome_iff_exists.1 (hbuilt.isSome_lastOf?_iff.2 hmem)
      refine ⟨q, hq, ?_⟩
      rw [hget, hq]
      rfl
    · rw [if_neg hmem] at ha
      obtain ⟨q, hq, hstore⟩ := hr.recorded k a ha
      refine ⟨q, hq, ?_⟩
      rw [hget, hbuilt.lastOf?_eq_none hmem]
      exact hstore

namespace Controller

variable {σ α : Type}

theorem follow_recordedFrom (c : Controller σ α) {start : SnapshotStore} {h : History}
    (hr : h.RecordedFrom start) (t : Trigger σ α) : (c.follow h t).RecordedFrom start := by
  rcases c.follow_cases h t with ⟨-, hsame⟩ | ⟨cluster, b, st, st', -, hf, hb, hnew⟩
  · rw [hsame]
    exact hr
  · rw [hnew]
    exact hr.accept (build_of hb)

/-- What holds of the snapshots after any run, whatever the snapshots at its start. -/
theorem run_recordedFrom (c : Controller σ α) (start : SnapshotStore)
    (triggers : List (Trigger σ α)) : (c.run start triggers).RecordedFrom start := by
  have hfrom : ∀ h : History, h.RecordedFrom start →
      (triggers.foldl c.follow h).RecordedFrom start := by
    induction triggers with
    | nil => exact fun h hr => hr
    | cons t rest ih => exact fun h hr => ih _ (c.follow_recordedFrom hr t)
  exact hfrom _ (History.recordedFrom_start start)

/-! ## The files of a reconciliation -/

/-- Neither the audit log nor the applier touches the file of a path. -/
structure LeavesAlone (c : Controller σ α) (path : String) : Prop where
  log : ∀ log, c.auditPath = some log → Disk.Apart log path
  applier : ∀ text d a, (c.applier text (d, a)).2.1.bytes? path = d.bytes? path

theorem bytes?_record {log? : Option String} {path : String}
    (hlog : ∀ log, log? = some log → Disk.Apart log path) (e : AuditEvent) (d : Disk) :
    (AuditLog.record log? e d).bytes? path = d.bytes? path := by
  unfold AuditLog.record
  split
  · rfl
  · rename_i log
    split
    · rename_i d' happend
      exact Disk.bytes?_change happend (hlog log rfl)
    · rfl

theorem bytes?_log (c : Controller σ α) {path : String}
    (hlog : ∀ log, c.auditPath = some log → Disk.Apart log path) (events : List AuditEvent)
    (s : ControllerState σ α) : (c.log events s).disk.bytes? path = s.disk.bytes? path := by
  show (events.foldl (fun d e => AuditLog.record c.auditPath e d) s.disk).bytes? path = _
  generalize s.disk = d
  induction events generalizing d with
  | nil => rfl
  | cons e rest ih => exact (ih _).trans (bytes?_record hlog e d)

/-- The state that a reconciliation comes to short of saving its snapshots. -/
def unsaved (c : Controller σ α) (now : Instant) (fetched : Except Error ClusterState)
    (s : ControllerState σ α) : ControllerState σ α :=
  match c.begin now fetched s with
  | (.settled _, s) => s
  | (.pending p, s) =>
    let (answer, disk, st) := c.applier p.text (s.disk, s.applier)
    let answer := answer.getD (.error (.applyTimeout c.deadline))
    let s := c.log [p.event now answer] { s with disk := disk, applier := st }
    match answer with
    | .error _ => s
    | .ok _ => { s with store := p.recordIn s.store }

/-- Saving the snapshots of a reconciliation succeeds. -/
def Saves (c : Controller σ α) (now : Instant) (fetched : Except Error ClusterState)
    (s : ControllerState σ α) (path : String) : Prop :=
  let s := c.unsaved now fetched s
  (s.store.save s.disk path).isOk

instance (c : Controller σ α) (now : Instant) (fetched : Except Error ClusterState)
    (s : ControllerState σ α) (path : String) : Decidable (c.Saves now fetched s path) :=
  inferInstanceAs (Decidable (_ = true))

/-- What is over before a ruleset is handed over is no success. -/
theorem not_isSuccess_of_settled (c : Controller σ α) {now : Instant}
    {fetched : Except Error ClusterState} {s s' : ControllerState σ α} {outcome : Outcome}
    (hbegin : c.begin now fetched s = (.settled outcome, s')) : outcome.isSuccess = false := by
  have hcourse := c.reconcile_course now fetched s
  rw [reconcile, hbegin] at hcourse
  cases hcourse <;> rfl

/-- A reconciliation saves its snapshots if it succeeds, and only then. -/
theorem reconcile_eq_unsaved (c : Controller σ α) (now : Instant)
    (fetched : Except Error ClusterState) (s : ControllerState σ α) :
    (c.reconcile now fetched s).2 =
      if (c.reconcile now fetched s).1.isSuccess then c.persist now (c.unsaved now fetched s)
      else c.unsaved now fetched s := by
  unfold reconcile unsaved
  rcases hbegin : c.begin now fetched s with ⟨prep, s₁⟩
  cases prep with
  | settled outcome =>
    -- Nothing was handed over, so there is nothing to save.
    have hfail := c.not_isSuccess_of_settled hbegin
    simp only [hfail, Bool.false_eq_true, if_false]
  | pending p =>
    rcases happly : c.applier p.text (s₁.disk, s₁.applier) with ⟨answer, disk, a⟩
    simp only [happly]
    cases answer.getD (.error (.applyTimeout c.deadline)) with
    | error e => rfl
    | ok o =>
      have hsuccess : (p.outcome (.ok o)).isSuccess :=
        (c.conclude_ok now p o { s₁ with disk := disk, applier := a }).1
      simp only [conclude]
      exact (if_pos hsuccess).symm

/-- Up to the saving, nothing touches a file that is left alone. -/
theorem LeavesAlone.bytes?_unsaved {c : Controller σ α} {path : String} (h : c.LeavesAlone path)
    (now : Instant) (fetched : Except Error ClusterState) (s : ControllerState σ α) :
    (c.unsaved now fetched s).disk.bytes? path = s.disk.bytes? path := by
  unfold unsaved
  rcases hbegin : c.begin now fetched s with ⟨prep, s₁⟩
  cases prep with
  | settled outcome => exact congrArg (Disk.bytes? · path) (begin_settled hbegin)
  | pending p =>
    -- The left out policies are logged, the applier is called, and its answer is logged.
    have hprepared : s₁.disk.bytes? path = s.disk.bytes? path := by
      obtain ⟨-, -, -, st, -, -, -, -, rfl⟩ := begin_pending hbegin
      exact c.bytes?_log h.log _ _
    have happlied := h.applier p.text s₁.disk s₁.applier
    rcases happly : c.applier p.text (s₁.disk, s₁.applier) with ⟨answer, disk, a⟩
    rw [happly, hprepared] at happlied
    simp only [happly]
    split <;> exact (c.bytes?_log h.log _ _).trans happlied

theorem store_unsaved (c : Controller σ α) (now : Instant) (fetched : Except Error ClusterState)
    (s : ControllerState σ α) :
    (c.unsaved now fetched s).store = (c.reconcile now fetched s).2.store := by
  rw [reconcile_eq_unsaved]
  split
  · exact (c.persist_frame now _).1.symm
  · rfl

/-- After a success whose snapshots were saved, their file was replaced as a whole and the event of
that was logged. -/
theorem disk_of_saves (c : Controller σ α) {now : Instant} {fetched : Except Error ClusterState}
    {s : ControllerState σ α} {path : String} (hpath : c.snapshotPath = some path)
    (hsuccess : (c.reconcile now fetched s).1.isSuccess) (hsaves : c.Saves now fetched s path) :
    ∃ d d' : Disk, d.writeAtomic path (c.reconcile now fetched s).2.store.fileText.toUTF8 = .ok d' ∧
      ∃ e, (c.reconcile now fetched s).2.disk = AuditLog.record c.auditPath e d' := by
  rw [← store_unsaved, reconcile_eq_unsaved, if_pos hsuccess]
  unfold Saves at hsaves
  unfold persist
  cases hsave : (c.unsaved now fetched s).store.save (c.unsaved now fetched s).disk path with
  | error e =>
    simp only [hsave] at hsaves
    cases hsaves
  | ok d =>
    simp only [hpath, hsave]
    exact ⟨(c.unsaved now fetched s).disk, d, orFault_eq_ok_iff.1 hsave, _, rfl⟩

/-- After a success whose snapshots were saved the file is that of the snapshots. -/
theorem bytes?_of_saves (c : Controller σ α) {now : Instant}
    {fetched : Except Error ClusterState} {s : ControllerState σ α} {path : String}
    (hpath : c.snapshotPath = some path)
    (hlog : ∀ log, c.auditPath = some log → Disk.Apart log path)
    (hsuccess : (c.reconcile now fetched s).1.isSuccess) (hsaves : c.Saves now fetched s path) :
    (c.reconcile now fetched s).2.disk.bytes? path =
      some (c.reconcile now fetched s).2.store.fileText.toUTF8 := by
  obtain ⟨d, d', hwrite, e, hdisk⟩ := c.disk_of_saves hpath hsuccess hsaves
  rw [hdisk, bytes?_record hlog e d']
  exact Disk.bytes?_writeAtomic hwrite

/-- A log in the snapshot file spoils it. -/
theorem bytes?_ne_of_shared_log (c : Controller σ α) {now : Instant}
    {fetched : Except Error ClusterState} {s : ControllerState σ α} {path : String}
    (hpath : c.snapshotPath = some path) (hlog : c.auditPath = some path)
    (hsuccess : (c.reconcile now fetched s).1.isSuccess) (hsaves : c.Saves now fetched s path) :
    (c.reconcile now fetched s).2.disk.bytes? path ≠
      some (c.reconcile now fetched s).2.store.fileText.toUTF8 := by
  obtain ⟨d, d', hwrite, e, hdisk⟩ := c.disk_of_saves hpath hsuccess hsaves
  obtain ⟨d'', hchange⟩ := Disk.change_of_writeAtomic hwrite (· ++ (e.line ++ "\n").toUTF8)
  have hrecord : AuditLog.record c.auditPath e d' = d'' := by
    simp only [AuditLog.record, hlog, AuditLog.append, Disk.append, hchange]
  rw [hdisk, hrecord, Disk.bytes?_change_self hchange, Disk.bytes?_writeAtomic hwrite]
  -- A line was appended, and no line is empty.
  intro hsame
  have hsize := congrArg ByteArray.size (Option.some.inj hsame)
  simp [ByteArray.size_append] at hsize

theorem bytes?_commit (l : Loader) (launches : List Launch) (d : Disk) (text : String)
    {path : String} (hstaging : Disk.Apart l.staging path) (htarget : Disk.Apart l.target path) :
    (l.commit launches d text).disk.bytes? path = d.bytes? path := by
  unfold Loader.commit
  split
  · rename_i hrename
    exact Disk.bytes?_rename hrename hstaging htarget
  · rfl

theorem bytes?_dropStaging (l : Loader) (d : Disk) {path : String}
    (hstaging : Disk.Apart l.staging path) : (l.dropStaging d).bytes? path = d.bytes? path := by
  unfold Loader.dropStaging
  split
  · rename_i hremove
    exact Disk.bytes?_remove hremove hstaging
  · rfl

/-- The loader changes its target and the file beside it, and no other file. -/
theorem bytes?_load (l : Loader) (launcher : Launcher) (d : Disk) (text : String) {path : String}
    (hstaging : Disk.Apart l.staging path) (htarget : Disk.Apart l.target path) :
    (l.apply launcher d text).disk.bytes? path = d.bytes? path := by
  unfold Loader.apply
  split
  · rfl
  · split
    · rfl
    · split
      · rfl
      · rename_i staged hwrite
        -- The file beside the target was written; it is given the target's name or dropped.
        rw [← Disk.bytes?_writeAtomic_of_apart hwrite hstaging]
        unfold Loader.loadStaged
        split
        · exact bytes?_commit l [] staged text hstaging htarget
        · split
          · exact bytes?_commit l _ staged text hstaging htarget
          · dsimp only
            exact bytes?_dropStaging l staged hstaging

/-- A controller with a loader leaves every file alone that is neither its log nor the target nor
the file beside the target. -/
theorem leavesAlone_of_loader {c : Controller σ (List Launch)} {l : Loader} {launcher : Launcher}
    (hc : c.applier = l.applier launcher) {path : String}
    (hlog : ∀ log, c.auditPath = some log → Disk.Apart log path)
    (hstaging : Disk.Apart l.staging path) (htarget : Disk.Apart l.target path) :
    c.LeavesAlone path where
  log := hlog
  applier := by
    intro text d launches
    rw [hc]
    exact bytes?_load l launcher d text hstaging htarget

/-! ## Snapshots and file along a run -/

/-- A trigger that is no success changes neither the snapshots nor a file that is left alone. -/
theorem unchanged_of_not_isSuccess (c : Controller σ α) (h : History) (t : Trigger σ α)
    (hfail : (c.react h.store t).1.isSuccess = false) :
    c.follow h t = h ∧ ∀ path, c.LeavesAlone path →
      (c.react h.store t).2.disk.bytes? path = t.disk.bytes? path := by
  refine ⟨?_, ?_⟩
  · rcases c.follow_cases h t with ⟨-, hsame⟩ | ⟨_, _, _, _, hsuccess, -⟩
    · exact hsame
    · rw [hfail] at hsuccess
      cases hsuccess
  · intro path halone
    rw [react] at hfail ⊢
    rw [reconcile_eq_unsaved, hfail, if_neg (by decide)]
    exact halone.bytes?_unsaved t.now t.fetched (t.state h.store)

/-- A trigger that is a success has a ruleset of its cluster accepted. -/
theorem accepted_of_follow (c : Controller σ α) (h : History) (t : Trigger σ α)
    (hsuccess : (c.react h.store t).1.isSuccess) :
    ∃ cluster b st st', t.fetched = .ok cluster ∧
      build c.resolver cluster.policies cluster.services cluster.firewall st = (.ok b, st') ∧
        (c.follow h t).accepted = ⟨cluster, b⟩ :: h.accepted := by
  rcases c.follow_cases h t with ⟨hfail, -⟩ | ⟨cluster, b, st, st', -, hf, hb, hnew⟩
  · rw [hfail] at hsuccess
    cases hsuccess
  · exact ⟨cluster, b, st, st', hf, hb, congrArg History.accepted hnew⟩

/-- After any run the snapshot of a key is what the last accepted ruleset with a policy of that key
recorded last, or what it was at the start. A trigger that is no success changes neither the
snapshots nor their file; after one that is, and whose snapshots were saved, the file is theirs. -/
theorem store_eq_history (c : Controller σ α) (start : SnapshotStore)
    (triggers : List (Trigger σ α)) :
    let h := c.run start triggers
    (∀ k, (h.lastWith? k = none → h.store.get? k = start.get? k) ∧
      ∀ a, h.lastWith? k = some a →
        ∃ q, a.build.lastOf? k = some q ∧ h.store.get? k = some q.spec) ∧
    ∀ t, ((c.react h.store t).1.isSuccess = false →
        c.follow h t = h ∧ ∀ path, c.LeavesAlone path →
          (c.react h.store t).2.disk.bytes? path = t.disk.bytes? path) ∧
      ((c.react h.store t).1.isSuccess →
        (∃ cluster b st st', t.fetched = .ok cluster ∧
          build c.resolver cluster.policies cluster.services cluster.firewall st = (.ok b, st') ∧
            (c.follow h t).accepted = ⟨cluster, b⟩ :: h.accepted) ∧
        ∀ path, c.snapshotPath = some path →
          (∀ log, c.auditPath = some log → Disk.Apart log path) →
            c.Saves t.now t.fetched (t.state h.store) path →
              (c.react h.store t).2.disk.bytes? path =
                some (c.react h.store t).2.store.fileText.toUTF8) := by
  intro h
  have hrecorded : h.RecordedFrom start := c.run_recordedFrom start triggers
  refine ⟨fun k => ⟨hrecorded.kept k, hrecorded.recorded k⟩, ?_⟩
  intro t
  refine ⟨c.unchanged_of_not_isSuccess h t, ?_⟩
  intro hsuccess
  refine ⟨c.accepted_of_follow h t hsuccess, ?_⟩
  intro path hpath hlog hsaves
  rw [react] at hsuccess ⊢
  exact c.bytes?_of_saves hpath hlog hsuccess hsaves

/-! ## Runs with files -/

/-- A rehearsing controller that keeps its snapshots and its log in these files. -/
def keeping (snapshots log : String) : Controller ResolutionCache Rehearsal :=
  { rehearsed with snapshotPath := some snapshots, auditPath := some log }

theorem keeping_leavesAlone :
    (keeping "snapshots.json" "audit.log").LeavesAlone "snapshots.json" where
  log := by
    intro log hlog
    obtain rfl := Option.some.inj hlog
    exact Disk.apart_of_names "audit.log" "snapshots.json" (by decide +kernel) (by decide)
      (by decide) (by decide +kernel) (by decide) (by decide) (by decide)
  applier := fun _ _ _ => rfl

/-- A valid and an invalid policy are recorded. A change of the answers is given no answer by the
applier and leaves everything as it was; when it is accepted later the file is that of the
snapshots. -/
theorem store_eq_history_after_timeout :
    let triggers := [Trigger.finding [blockAndName "web", blockAndName ""] [] (knowing ["a"])]
    let change := Trigger.finding [blockAndName "web"] [] (knowing ["b"])
    let silent := { change with applier := { change.applier with mode := .silent } }
    let c := keeping "snapshots.json" "audit.log"
    let invalid : PolicyKey := ⟨"firewall", ""⟩
    (∃ a q, (c.run ∅ triggers).lastWith? invalid = some a ∧ a.build.lastOf? invalid = some q ∧
        (c.run ∅ triggers).store.get? invalid = some q.spec) ∧
      (c.run ∅ triggers).store.get? ⟨"firewall", "db"⟩ = none ∧
        c.follow (c.run ∅ triggers) silent = c.run ∅ triggers ∧
          (c.react (c.run ∅ triggers).store silent).2.disk.bytes? "snapshots.json" = none ∧
            (c.react (c.run ∅ triggers).store change).2.disk.bytes? "snapshots.json" =
              some (c.react (c.run ∅ triggers).store change).2.store.fileText.toUTF8 := by
  intro triggers change silent c invalid
  have hlast : ((c.run ∅ triggers).lastWith? invalid).isSome ∧
      ((c.run ∅ triggers).lastWith? ⟨"firewall", "db"⟩).isNone := by
    decide +kernel
  have hsilent : (c.react (c.run ∅ triggers).store silent).1.isSuccess = false := by
    decide +kernel
  have hchange : (c.react (c.run ∅ triggers).store change).1.isSuccess ∧
      c.Saves change.now change.fetched (change.state (c.run ∅ triggers).store)
        "snapshots.json" := by
    decide +kernel
  have hfile : silent.disk.bytes? "snapshots.json" = none := by decide +kernel
  obtain ⟨hstore, hstep⟩ := store_eq_history c ∅ triggers
  obtain ⟨hsame, hdisk⟩ := (hstep silent).1 hsilent
  obtain ⟨a, ha⟩ := Option.isSome_iff_exists.1 hlast.1
  obtain ⟨q, hq, hget⟩ := (hstore invalid).2 a ha
  exact ⟨⟨a, q, ha, hq, hget⟩, (hstore _).1 (Option.isNone_iff_eq_none.1 hlast.2), hsame,
    (hdisk _ keeping_leavesAlone).trans hfile,
    ((hstep change).2 hchange.1).2 _ rfl keeping_leavesAlone.log hchange.2⟩

/-- A controller that stages its rulesets in its snapshot file, with a command that always fails. -/
def staging : Controller ResolutionCache (List Launch) where
  resolver := ResolutionCache.resolver
  applier := Loader.applier ⟨"nft", [], "rules", false⟩ fun _ _ => .code 1 .empty
  deadline := standardDeadline
  snapshotPath := some "rules.staging"
  auditPath := none

/-- Where the loader stages its rulesets in the snapshot file, a ruleset that is refused takes the
file away. Where the log is in the snapshot file, a reconciliation that fails writes to it, and
after one that succeeds it is not that of the snapshots. -/
theorem file_spoiled_by_shared_paths :
    let refused : Trigger ResolutionCache (List Launch) :=
      ⟨.epoch, .ok (.plain [blockAndName "web"] []),
        ⟨[(["rules.staging"], .file .empty 0o600)], []⟩, knowing ["a"], []⟩
    let t := Trigger.finding [blockAndName "web"] [] (knowing ["a"])
    let silent := { t with applier := { t.applier with mode := .silent } }
    let c := keeping "snapshots.json" "snapshots.json"
    ((staging.react ∅ refused).1.isSuccess = false ∧
      (refused.disk.bytes? "rules.staging").isSome ∧
        ((staging.react ∅ refused).2.disk.bytes? "rules.staging").isNone) ∧
      ((c.react ∅ silent).1.isSuccess = false ∧ (t.disk.bytes? "snapshots.json").isNone ∧
        ((c.react ∅ silent).2.disk.bytes? "snapshots.json").isSome) ∧
      (c.react ∅ t).1.isSuccess ∧ c.Saves t.now t.fetched (t.state ∅) "snapshots.json" ∧
        (c.react ∅ t).2.disk.bytes? "snapshots.json" ≠
          some (c.react ∅ t).2.store.fileText.toUTF8 := by
  intro refused t silent c
  constructor
  case left => decide +kernel
  case right =>
    have hsuccess : (c.react ∅ t).1.isSuccess ∧
        c.Saves t.now t.fetched (t.state ∅) "snapshots.json" := by
      decide +kernel
    exact ⟨by decide +kernel, hsuccess.1, hsuccess.2,
      c.bytes?_ne_of_shared_log rfl rfl hsuccess.1 hsuccess.2⟩

end Controller

end ClusterFirewall
