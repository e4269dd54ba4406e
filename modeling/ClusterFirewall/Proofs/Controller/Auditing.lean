import ClusterFirewall.Proofs.Controller.Appending
import ClusterFirewall.Proofs.Controller.Saving

/-!
# The audit trail

Every exit of a reconciliation leaves entries of its own in the log. `Controller.trail` says which,
from the policies of the cluster, the ruleset and the outcome, and `LogEntry.ToldBy` what the line
of an entry is: one line whose document has these members in this order. `Controller.Logged` says of
two disks that one comes from the other by adding the lines of entries to the log, while the applier
and the saving of the snapshots do what they do. If the writes to the log succeed, a reconciliation
adds the entries of its trail, in their order and no others.

Main statement: `trail_logged`. The applier is assumed to report the digest of the text that it
loaded, as the loader and the rehearsal do (`Loader.reports_applier`, `Rehearsal.reports_applier`).
-/

namespace ClusterFirewall

/-! ## Entries and their lines -/

/-- What an entry says of its subject. -/
inductive Detail where
  /-- A text. -/
  | text (s : String)
  /-- A number of things. -/
  | count (n : Nat)
  deriving DecidableEq

/-- The document of a detail. -/
def Detail.document : Detail → Json
  | .text s => .string (some s)
  | .count n => .number ⟨false, n, [], none⟩

/-- What the log is to tell, apart from the time. -/
structure LogEntry where
  /-- The word for what happened. -/
  word : String
  /-- Whether it succeeded. -/
  success : Bool
  /-- What it was about, by names. -/
  details : List (String × Detail)
  /-- Why it failed. -/
  error : Option String
  deriving DecidableEq

namespace LogEntry

/-- A text tells an entry: it is one line, and a document of five members, the time among them. -/
structure ToldBy (now : Instant) (entry : LogEntry) (line : String) : Prop where
  oneLine : '\n' ∉ line.toList
  document : Json.parse line = some (.object
    [(some "timestamp", .string (some now.text)),
      (some "event_type", .string (some entry.word)),
      (some "success", .bool entry.success),
      (some "details", .object (entry.details.map fun m => (some m.1, m.2.document))),
      (some "error", entry.error.elim .null fun message => .string (some message))])

/-- An entry that answers for a ruleset: it was loaded, or refused, or was the loaded one. -/
def isAnswer (entry : LogEntry) : Bool :=
  entry.word = "apply_ruleset" || entry.word = "skip_unchanged"

/-- The line of an event tells the entry that agrees with it. -/
theorem toldBy_line {now : Instant} {entry : LogEntry} {e : AuditEvent} (htime : e.timestamp = now)
    (hword : e.type.text = entry.word) (hsuccess : e.success = entry.success)
    (hdetails : e.details = .object (entry.details.map fun m => (some m.1, m.2.document)))
    (herror : e.error = entry.error) : entry.ToldBy now e.line where
  oneLine := e.not_mem_line (by decide)
  document := by
    rw [AuditEvent.line, Json.parse_compact, ← htime, ← hword, ← hsuccess, ← hdetails, ← herror]
    cases herror' : e.error <;> simp [toJson, Json.record, Json.str, herror']

end LogEntry

/-! ## Reports and calls of an applier -/

namespace Applier

variable {α : Type}

/-- An applier that succeeds names the SHA-256 digest of the text that it was given. -/
def Reports (f : Applier α) : Prop :=
  ∀ text d a o, (f text (d, a)).1 = some (.ok o) →
    o = .applied (Sha256.hex text) ∨ o = .unchanged (Sha256.hex text)

/-- An applier that does what another does and remembers the texts that it is given. -/
def remembering (f : Applier α) : Applier (List String × α) := fun text (d, calls, a) =>
  let (answer, d, a) := f text (d, a)
  (answer, d, calls ++ [text], a)

end Applier

namespace Loader

theorem applied_of_commit (l : Loader) {launches : List Launch} {d : Disk} {text : String}
    {o : ApplyOutcome} (h : (l.commit launches d text).result = .ok o) :
    o = .applied (Sha256.hex text) := by
  unfold commit at h
  split at h
  · obtain rfl := Except.ok.inj h
    rfl
  · cases h

theorem reports_applier (l : Loader) (launcher : Launcher) : (l.applier launcher).Reports := by
  intro text d launches o ho
  have hresult : (l.apply launcher d text).result = .ok o := Option.some.inj ho
  unfold apply at hresult
  split at hresult
  · cases hresult
  · split at hresult
    · obtain rfl := Except.ok.inj hresult
      exact .inr rfl
    · split at hresult
      · cases hresult
      · unfold loadStaged at hresult
        split at hresult
        · exact .inl (l.applied_of_commit hresult)
        · split at hresult
          · exact .inl (l.applied_of_commit hresult)
          · cases hresult

end Loader

theorem Rehearsal.reports_applier : Rehearsal.applier.Reports := by
  intro text d r o ho
  have hanswer : (r.take.answer text).1 = some (.ok o) := ho
  unfold answer at hanswer
  split at hanswer
  · cases hanswer
  · cases hanswer
  · split at hanswer
    · obtain rfl := Except.ok.inj (Option.some.inj hanswer)
      exact .inr rfl
    · obtain rfl := Except.ok.inj (Option.some.inj hanswer)
      exact .inl rfl

/-! ## What is expected of a reconciliation -/

/-- The entries of the policies that are left out, in the order of the cluster. -/
def ClusterState.rejections (cluster : ClusterState) : List LogEntry :=
  (cluster.policies.filter fun q => !q.isValid).map fun q =>
    ⟨"reject_policy", false, [("policy", .text (q.space ++ "/" ++ q.name))],
      some "validation failed"⟩

/-- The ruleset to load, if there is one. -/
def Preparation.pending? : Preparation → Option Pending
  | .settled _ => none
  | .pending p => some p

namespace Controller

variable {σ α : Type}

/-- The entry of saving snapshots to a disk, if they are saved at all. -/
def savings (c : Controller σ α) (store : SnapshotStore) (d : Disk) : List LogEntry :=
  match c.snapshotPath with
  | none => []
  | some path =>
    let count := [("snapshot_count", .count store.entries.length)]
    match store.save d path with
    | .ok _ => [⟨"persist_snapshots", true, count, none⟩]
    | .error e => [⟨"persist_snapshots", false, count, some e.message⟩]

/-- The entries of the reconciliation that a trigger causes. Only one that had a ruleset to load has
any: the policies that were left out, how the ruleset was answered, and, if it was loaded, the
saving of the snapshots, which are those that the reconciliation leaves behind. The digest is that
of the text, whatever the applier reports. -/
def trail (c : Controller σ α) (store : SnapshotStore) (t : Trigger σ α) : List LogEntry :=
  match t.fetched with
  | .error _ => []
  | .ok cluster =>
    match detect c.resolver cluster.policies store t.resolver with
    | (none, _) => []
    | (some drift, st) =>
      match build c.resolver cluster.policies cluster.services cluster.firewall st with
      | (.error _, _) => []
      | (.ok b, _) =>
        let sum := ("checksum", .text (Sha256.hex b.ruleset.text))
        let about := [sum, ("reason", .text drift.text),
          ("rule_count", .count (b.ruleset.ingress.length + b.ruleset.egress.length))]
        let saved := c.savings (c.react store t).2.store
          (c.unsaved t.now t.fetched (t.state store)).disk
        match (c.react store t).1 with
        | .applied _ _ => cluster.rejections ++ ⟨"apply_ruleset", true, about, none⟩ :: saved
        | .unchanged _ _ => cluster.rejections ++ ⟨"skip_unchanged", true, [sum], none⟩ :: saved
        | .failed e =>
          cluster.rejections ++ [⟨"apply_ruleset", false, about, some e.message⟩]
        | .upToDate => []

/-- A controller whose applier remembers the texts that it is given. -/
def remembering (c : Controller σ α) : Controller σ (List String × α) :=
  { c with applier := c.applier.remembering }

/-- The texts that the applier is called with in the reconciliation that a trigger causes. -/
def calls (c : Controller σ α) (store : SnapshotStore) (t : Trigger σ α) : List String :=
  (c.remembering.react store { t with applier := ([], t.applier) }).2.applier.1

/-- The answer to a ruleset, and the state that it finds. -/
def answered (c : Controller σ α) (p : Pending) (s : ControllerState σ α) :
    Except Error ApplyOutcome × ControllerState σ α :=
  let (answer, disk, st) := c.applier p.text (s.disk, s.applier)
  (answer.getD (.error (.applyTimeout c.deadline)), { s with disk := disk, applier := st })

/-- The writes to the log succeed in the reconciliation that a trigger causes: the log can be added
to where policies are left out, and once the applier is done. What the controller itself writes in
between makes no difference. -/
def LogWrites (c : Controller σ α) (log : String) (store : SnapshotStore) (t : Trigger σ α) :
    Prop :=
  let prepared := c.begin t.now t.fetched (t.state store)
  ∀ p ∈ prepared.1.pending?,
    (p.build.skipped ≠ [] → t.disk.Appendable log) ∧
      (c.answered p prepared.2).2.disk.Appendable log

instance (c : Controller σ α) (log : String) (store : SnapshotStore) (t : Trigger σ α) :
    Decidable (c.LogWrites log store t) :=
  inferInstanceAs (Decidable (∀ p ∈ Preparation.pending? _, _))

/-- How one disk comes from another while these entries are added to the log. -/
inductive Logged (c : Controller σ α) (log : String) (now : Instant) (d : Disk) :
    List LogEntry → Disk → Prop where
  /-- Nothing happened yet. -/
  | start : Logged c log now d [] d
  /-- The line of an entry was added. -/
  | added {entries : List LogEntry} {d' d'' : Disk} {entry : LogEntry} {line : String}
      (h : Logged c log now d entries d') (htold : entry.ToldBy now line)
      (happend : d'.append log (line ++ "\n").toUTF8 = .ok d'') :
      Logged c log now d (entries ++ [entry]) d''
  /-- The applier was called. -/
  | called {entries : List LogEntry} {d' : Disk} (text : String) (a : α)
      (h : Logged c log now d entries d') : Logged c log now d entries (c.applier text (d', a)).2.1
  /-- The snapshots were saved. -/
  | saved {entries : List LogEntry} {d' d'' : Disk} {path : String} {store : SnapshotStore}
      (h : Logged c log now d entries d') (hpath : c.snapshotPath = some path)
      (hsave : store.save d' path = .ok d'') : Logged c log now d entries d''

/-! ## Adding entries -/

section Adding

variable {c : Controller σ α} {log : String} {now : Instant} {d : Disk} {entries : List LogEntry}
  {s : ControllerState σ α}

/-- Events that are logged add the entries that they tell to a log that can be added to, which stays
such a log. -/
theorem Logged.addAll (hlog : c.auditPath = some log) (h : c.Logged log now d entries s.disk)
    (happendable : s.disk.Appendable log) {more : List LogEntry} {events : List AuditEvent}
    (htold : List.Forall₂ (fun entry e => entry.ToldBy now e.line) more events) :
    c.Logged log now d (entries ++ more) (c.log events s).disk ∧
      (c.log events s).disk.Appendable log := by
  induction htold generalizing entries s with
  | nil =>
    rw [List.append_nil]
    exact ⟨h, happendable⟩
  | @cons entry e more rest hentry _ ih =>
    -- The first event makes a new disk, and the others are added to that.
    obtain ⟨d', happend, hd'⟩ := happendable.exists_append (e.line ++ "\n").toUTF8
    have hrecord : AuditLog.record c.auditPath e s.disk = d' := by
      simp only [AuditLog.record, hlog, AuditLog.append, happend]
    have hnext : c.log (e :: rest) s = c.log rest { s with disk := d' } := by
      rw [← hrecord]
      rfl
    have hadded : c.Logged log now d (entries ++ [entry]) d' := h.added hentry happend
    rw [hnext, List.append_cons]
    exact ih hadded hd'

theorem Logged.add (hlog : c.auditPath = some log) (h : c.Logged log now d entries s.disk)
    (happendable : s.disk.Appendable log) {entry : LogEntry} {e : AuditEvent}
    (htold : entry.ToldBy now e.line) :
    c.Logged log now d (entries ++ [entry]) (c.log [e] s).disk ∧
      (c.log [e] s).disk.Appendable log :=
  h.addAll hlog happendable (.cons htold .nil)

/-- Saving the snapshots adds one entry, whether it succeeds or not. -/
theorem Logged.persist (hlog : c.auditPath = some log) (h : c.Logged log now d entries s.disk)
    (happendable : s.disk.Appendable log) :
    c.Logged log now d (entries ++ c.savings s.store s.disk) (c.persist now s).disk := by
  unfold Controller.persist savings
  cases hpath : c.snapshotPath with
  | none =>
    rw [List.append_nil]
    exact h
  | some path =>
    dsimp only
    cases hsave : s.store.save s.disk path with
    | ok d' =>
      -- The file of the snapshots is no folder, so the log is where it was.
      have hsame : s.disk.SameFolders d' :=
        Disk.sameFolders_of_writeAtomic (orFault_eq_ok_iff.1 hsave)
      have hd' : d'.Appendable log := (hsame.appendable_iff log).2 happendable
      have hsaved : c.Logged log now d entries { s with disk := d' }.disk := h.saved hpath hsave
      exact (hsaved.add hlog hd' (LogEntry.toldBy_line rfl rfl rfl rfl rfl)).1
    | error e => exact (h.add hlog happendable (LogEntry.toldBy_line rfl rfl rfl rfl rfl)).1

/-- If the applier and the saving of the snapshots leave the log alone, the log grows by lines that
tell the entries. -/
theorem Logged.exists_lines
    (happlier : ∀ text d a, (c.applier text (d, a)).2.1.bytes? log = d.bytes? log)
    (hpath : ∀ path, c.snapshotPath = some path → Disk.Apart path log) {d' : Disk}
    (h : c.Logged log now d entries d') :
    ∃ lines, List.Forall₂ (LogEntry.ToldBy now) entries lines ∧
      (d'.bytes? log).getD .empty =
        (d.bytes? log).getD .empty ++ (String.join (lines.map (· ++ "\n"))).toUTF8 := by
  induction h with
  | start => exact ⟨[], .nil, by simp⟩
  | @added _ _ _ _ line h htold happend ih =>
    -- The new line comes after those of the entries before.
    obtain ⟨lines, hlines, hbytes⟩ := ih
    refine ⟨lines ++ [line], List.rel_append hlines (.cons htold .nil), ?_⟩
    rw [Disk.bytes?_change_self happend, Option.getD_some, hbytes, ByteArray.append_assoc]
    simp
  | called text a h ih =>
    rw [happlier]
    exact ih
  | saved h hsnapshots hsave ih =>
    rw [Disk.bytes?_writeAtomic_of_apart (orFault_eq_ok_iff.1 hsave) (hpath _ hsnapshots)]
    exact ih

end Adding

/-! ## The parts of a reconciliation -/

/-- What is logged of the policies of a build tells what is expected of those of the cluster. -/
theorem rejections_told {cluster : ClusterState} {p : Pending} (h : p.build.Of cluster)
    (now : Instant) : List.Forall₂ (fun entry e => entry.ToldBy now e.line) cluster.rejections
      (p.rejections now) := by
  have hkeys : ∀ policies : List Policy,
      (policies.map fun q => AuditEvent.rejected now q.key.text) =
        (policies.map Policy.withoutSets).map fun q => .rejected now q.key.text := by
    intro policies
    rw [List.map_map]
    apply List.map_congr_left
    intro q _
    rw [Function.comp_apply, q.key_withoutSets]
  rw [Pending.rejections, hkeys, h.skipped, ← hkeys, ClusterState.rejections,
    List.forall₂_map_left_iff, List.forall₂_map_right_iff, List.forall₂_same]
  exact fun q _ => LogEntry.toldBy_line rfl rfl rfl rfl rfl

section Handed

variable {c : Controller σ α} {store : SnapshotStore} {t : Trigger σ α} {p : Pending}
  {s : ControllerState σ α}

theorem react_of_settled {outcome : Outcome}
    (h : c.begin t.now t.fetched (t.state store) = (.settled outcome, s)) :
    c.react store t = (outcome, s) := by
  rw [react, reconcile, h]

theorem react_of_pending (h : c.begin t.now t.fetched (t.state store) = (.pending p, s)) :
    c.react store t = c.conclude t.now p (c.answered p s).1 (c.answered p s).2 := by
  rw [react, reconcile, h]
  rfl

/-- Where no ruleset was handed over, nothing drifted, or the cluster could not be fetched or no
ruleset could be built of it. -/
theorem ends_of_settled {outcome : Outcome}
    (h : c.begin t.now t.fetched (t.state store) = (.settled outcome, s)) :
    (∃ e, t.fetched = .error e) ∨
      (outcome = .upToDate ∧ ∃ cluster st, t.fetched = .ok cluster ∧
        detect c.resolver cluster.policies store t.resolver = (none, st)) ∨
      ∃ cluster drift st, t.fetched = .ok cluster ∧
        detect c.resolver cluster.policies store t.resolver = (some drift, st) ∧
          ∃ v st', build c.resolver cluster.policies cluster.services cluster.firewall st =
            (.error v, st') := by
  -- Of the five courses only three end before a ruleset is handed over.
  have hcourse := c.reconcile_course t.now t.fetched (t.state store)
  have hreact : c.reconcile t.now t.fetched (t.state store) = (outcome, s) := react_of_settled h
  rw [h, hreact] at hcourse
  cases hcourse with
  | unfetched hf => exact .inl ⟨_, hf⟩
  | upToDate hf hd => exact .inr (.inl ⟨rfl, _, _, hf, hd⟩)
  | unbuilt hf hd hb => exact .inr (.inr ⟨_, _, _, hf, hd, _, _, hb⟩)

theorem trail_of_settled {outcome : Outcome}
    (h : c.begin t.now t.fetched (t.state store) = (.settled outcome, s)) :
    c.trail store t = [] := by
  unfold trail
  rcases ends_of_settled h with
    ⟨e, hf⟩ | ⟨-, cluster, st, hf, hd⟩ | ⟨cluster, drift, st, hf, hd, v, st', hb⟩
  · simp only [hf]
  · simp only [hf, hd]
  · simp only [hf, hd, hb]

/-- After a success the policies are recorded before the snapshots are saved. -/
theorem unsaved_of_accepted {o : ApplyOutcome}
    (h : c.begin t.now t.fetched (t.state store) = (.pending p, s))
    (ho : (c.answered p s).1 = .ok o) :
    c.unsaved t.now t.fetched (t.state store) =
      { c.log [p.event t.now (.ok o)] (c.answered p s).2 with store := p.recordIn s.store } := by
  rcases happly : c.applier p.text (s.disk, s.applier) with ⟨answer, disk, a⟩
  simp only [answered, happly] at ho ⊢
  simp only [unsaved, h, happly, ho, log]

theorem report_of_answered (hreports : c.applier.Reports) {o : ApplyOutcome}
    (ho : (c.answered p s).1 = .ok o) :
    o = .applied (Sha256.hex p.text) ∨ o = .unchanged (Sha256.hex p.text) := by
  cases hanswer : (c.applier p.text (s.disk, s.applier)).1 with
  | none =>
    have hnone : (c.answered p s).1 = .error (.applyTimeout c.deadline) :=
      congrArg (Option.getD · _) hanswer
    rw [hnone] at ho
    cases ho
  | some answer =>
    have hsome : (c.answered p s).1 = answer := congrArg (Option.getD · _) hanswer
    obtain rfl := hsome.symm.trans ho
    exact hreports _ _ _ _ hanswer

/-- What is expected of a reconciliation with a ruleset to load: the policies that are left out, an
entry that the event of the answer tells, and, after a success, the saving. -/
theorem trail_of_pending (hreports : c.applier.Reports) {cluster : ClusterState}
    (hf : t.fetched = .ok cluster)
    (h : c.begin t.now t.fetched (t.state store) = (.pending p, s)) :
    ∃ entry : LogEntry, entry.isAnswer ∧
      entry.ToldBy t.now (p.event t.now (c.answered p s).1).line ∧
      c.trail store t = cluster.rejections ++ entry ::
        match (c.answered p s).1 with
        | .error _ => []
        | .ok _ => c.savings (c.react store t).2.store
          (c.unsaved t.now t.fetched (t.state store)).disk := by
  obtain ⟨cluster', drift, st, st', hf', hreason, hd, hb, -⟩ := begin_pending h
  obtain rfl := Except.ok.inj (hf.symm.trans hf')
  have hd' : detect c.resolver cluster.policies store t.resolver = (some drift, st) := hd
  have hoccurred : (c.react store t).1 = p.outcome (c.answered p s).1 := by
    rw [react_of_pending h, outcome_conclude]
  unfold trail
  simp only [hf, hd', hb, hoccurred, ← hreason]
  -- The event holds the digest that was reported, which is the digest of the text.
  cases ho : (c.answered p s).1 with
  | error e => exact ⟨_, rfl, LogEntry.toldBy_line rfl rfl rfl rfl rfl, rfl⟩
  | ok o =>
    rcases report_of_answered hreports ho with rfl | rfl
    · exact ⟨_, rfl, LogEntry.toldBy_line rfl rfl rfl rfl rfl, rfl⟩
    · exact ⟨_, rfl, LogEntry.toldBy_line rfl rfl rfl rfl rfl, rfl⟩

/-- After a success the snapshots are saved. -/
theorem react_of_accepted {o : ApplyOutcome}
    (h : c.begin t.now t.fetched (t.state store) = (.pending p, s))
    (ho : (c.answered p s).1 = .ok o) :
    (c.react store t).2 = c.persist t.now (c.unsaved t.now t.fetched (t.state store)) := by
  rw [react_of_pending h, ho, unsaved_of_accepted h ho]
  simp only [conclude]
  rfl

/-- A reconciliation with a ruleset to load logs what is expected of it. -/
theorem logged_of_pending {log : String} (hlog : c.auditPath = some log)
    (hreports : c.applier.Reports) (hwrites : c.LogWrites log store t)
    (h : c.begin t.now t.fetched (t.state store) = (.pending p, s)) :
    c.Logged log t.now t.disk (c.trail store t) (c.react store t).2.disk := by
  obtain ⟨cluster, drift, st, st', hf, -, hd, hb, hs⟩ := begin_pending h
  have hp : p ∈ (c.begin t.now t.fetched (t.state store)).1.pending? := by
    rw [h]
    rfl
  obtain ⟨hbefore, hafter⟩ := hwrites p hp
  rw [h] at hafter
  obtain ⟨entry, -, htold, htrail⟩ := trail_of_pending hreports hf h
  have hrejections := rejections_told (build_of hb) t.now
  rw [htrail, List.append_cons]
  have hrejected : c.Logged log t.now t.disk cluster.rejections s.disk := by
    -- Where no policy was left out nothing is written yet, and nothing is asked of the disk.
    by_cases hnone : p.build.skipped = []
    · have hempty : p.rejections t.now = [] := by rw [Pending.rejections, hnone, List.map_nil]
      rw [hempty, List.forall₂_nil_right_iff] at hrejections
      rw [hs, hempty, hrejections]
      exact .start
    · rw [hs]
      have hopen : { t.state store with resolver := st' }.disk.Appendable log := hbefore hnone
      exact (Logged.start.addAll hlog hopen hrejections).1
  have hcalled : c.Logged log t.now t.disk cluster.rejections (c.answered p s).2.disk :=
    hrejected.called p.text s.applier
  obtain ⟨hanswered, hopen⟩ := hcalled.add hlog hafter htold
  -- After an error that is all; after a success the snapshots are saved.
  cases ho : (c.answered p s).1 with
  | error e =>
    rw [ho] at hanswered
    rw [react_of_pending h, ho, List.append_nil]
    exact hanswered
  | ok o =>
    rw [ho] at hanswered hopen
    have hdisk : (c.unsaved t.now t.fetched (t.state store)).disk =
        (c.log [p.event t.now (.ok o)] (c.answered p s).2).disk := by
      rw [unsaved_of_accepted h ho]
    have hstore := (c.persist_frame t.now (c.unsaved t.now t.fetched (t.state store))).1
    rw [react_of_accepted h ho, hstore]
    rw [← hdisk] at hanswered hopen
    exact hanswered.persist hlog hopen

end Handed

/-! ## The whole -/

/-- Every reconciliation logs what is expected of it. -/
theorem logged_react {c : Controller σ α} {log : String} (hlog : c.auditPath = some log)
    (hreports : c.applier.Reports) {store : SnapshotStore} {t : Trigger σ α}
    (hwrites : c.LogWrites log store t) :
    c.Logged log t.now t.disk (c.trail store t) (c.react store t).2.disk := by
  rcases hbegin : c.begin t.now t.fetched (t.state store) with ⟨prep, s⟩
  cases prep with
  | settled outcome =>
    have hdisk : s.disk = t.disk := begin_settled hbegin
    rw [trail_of_settled hbegin, react_of_settled hbegin, hdisk]
    exact .start
  | pending p => exact logged_of_pending hlog hreports hwrites hbegin

/-- Nothing is logged if nothing drifted, or if the cluster could not be fetched or no ruleset could
be built of it. -/
theorem trail_eq_nil_iff {c : Controller σ α} (hreports : c.applier.Reports)
    {store : SnapshotStore} {t : Trigger σ α} :
    c.trail store t = [] ↔
      (c.react store t).1 = .upToDate ∨ (∃ e, t.fetched = .error e) ∨
        ∃ cluster drift st, t.fetched = .ok cluster ∧
          detect c.resolver cluster.policies store t.resolver = (some drift, st) ∧
            ∃ v st', build c.resolver cluster.policies cluster.services cluster.firewall st =
              (.error v, st') := by
  rcases hbegin : c.begin t.now t.fetched (t.state store) with ⟨prep, s⟩
  cases prep with
  | settled outcome =>
    refine iff_of_true (trail_of_settled hbegin) ?_
    rw [react_of_settled hbegin]
    rcases ends_of_settled hbegin with hf | ⟨hup, -⟩ | hunbuilt
    · exact .inr (.inl hf)
    · exact .inl hup
    · exact .inr (.inr hunbuilt)
  | pending p =>
    obtain ⟨cluster₁, drift₁, st₁, st₂, hf₁, -, hd₁, hb₁, -⟩ := begin_pending hbegin
    refine iff_of_false ?_ ?_
    · obtain ⟨entry, -, -, htrail⟩ := trail_of_pending hreports hf₁ hbegin
      rw [htrail]
      simp
    · rintro (hup | ⟨e, hf⟩ | ⟨cluster, drift, st, hf, hd, v, st', hb⟩)
      · rw [react_of_pending hbegin, outcome_conclude] at hup
        exact p.outcome_ne_upToDate _ hup
      · cases hf.symm.trans hf₁
      · -- The ruleset was built, so there is no violation that it failed of.
        obtain rfl := Except.ok.inj (hf₁.symm.trans hf)
        obtain ⟨-, rfl⟩ := Prod.mk.inj (hd₁.symm.trans hd)
        cases hb₁.symm.trans hb

/-! ## Calls of the applier -/

theorem begin_remembering (c : Controller σ α) (now : Instant)
    (fetched : Except Error ClusterState) (s : ControllerState σ α) (calls : List String) :
    let prepared := c.begin now fetched s
    c.remembering.begin now fetched { s with applier := (calls, s.applier) } =
      (prepared.1, { prepared.2 with applier := (calls, s.applier) }) := by
  intro prepared
  cases fetched with
  | error e => rfl
  | ok cluster =>
    rcases hplan : plan c.resolver s.store cluster s.resolver with ⟨prep, st⟩
    simp only [prepared, begin, remembering, hplan]
    cases prep <;> rfl

theorem applier_conclude (c : Controller σ α) (now : Instant) (p : Pending)
    (answer : Except Error ApplyOutcome) (s : ControllerState σ α) :
    (c.conclude now p answer s).2.applier = s.applier := by
  cases answer with
  | error e => rfl
  | ok o =>
    simp only [conclude]
    exact (c.persist_frame now
      { c.log [p.event now (.ok o)] s with store := p.recordIn s.store }).2.2

/-- The applier is called once with the ruleset, if there is one to load, and not at all else. -/
theorem calls_eq (c : Controller σ α) (store : SnapshotStore) (t : Trigger σ α) :
    c.calls store t =
      ((c.begin t.now t.fetched (t.state store)).1.pending?.map Pending.text).toList := by
  let t' : Trigger σ (List String × α) := { t with applier := ([], t.applier) }
  have hbegin : c.remembering.begin t'.now t'.fetched (t'.state store) = _ :=
    c.begin_remembering t.now t.fetched (t.state store) []
  show (c.remembering.react store t').2.applier.1 = _
  generalize c.begin t.now t.fetched (t.state store) = prepared at hbegin ⊢
  obtain ⟨prep, s⟩ := prepared
  cases prep with
  | settled outcome =>
    rw [react_of_settled hbegin]
    rfl
  | pending p =>
    rw [react_of_pending hbegin, applier_conclude]
    rfl

theorem countP_rejections (cluster : ClusterState) :
    cluster.rejections.countP LogEntry.isAnswer = 0 := by
  rw [List.countP_eq_zero]
  intro e he
  obtain ⟨q, -, rfl⟩ := List.mem_map.1 he
  exact Bool.false_ne_true

theorem countP_savings (c : Controller σ α) (store : SnapshotStore) (d : Disk) :
    (c.savings store d).countP LogEntry.isAnswer = 0 := by
  unfold savings
  split
  · rfl
  · dsimp only
    split <;> rfl

/-- A reconciliation is expected to answer for as many rulesets as the applier was called with. -/
theorem countP_trail {c : Controller σ α} (hreports : c.applier.Reports) (store : SnapshotStore)
    (t : Trigger σ α) :
    (c.trail store t).countP LogEntry.isAnswer = (c.calls store t).length := by
  rw [calls_eq]
  rcases hbegin : c.begin t.now t.fetched (t.state store) with ⟨prep, s⟩
  cases prep with
  | settled outcome =>
    rw [trail_of_settled hbegin]
    rfl
  | pending p =>
    obtain ⟨cluster, -, -, -, hf, -⟩ := begin_pending hbegin
    obtain ⟨entry, hanswer, -, htrail⟩ := trail_of_pending hreports hf hbegin
    rw [htrail, List.countP_append, countP_rejections, List.countP_cons_of_pos hanswer]
    cases (c.answered p s).1 with
    | error e => rfl
    | ok o =>
      dsimp only
      rw [countP_savings]
      rfl

/-- Over a run the answers are as many as the calls. -/
theorem countP_collect_trail {c : Controller σ α} (hreports : c.applier.Reports)
    (start : SnapshotStore) (triggers : List (Trigger σ α)) :
    (c.collect c.trail start triggers).countP LogEntry.isAnswer =
      (c.collect c.calls start triggers).length := by
  induction triggers generalizing start with
  | nil => rfl
  | cons t rest ih =>
    rw [collect, collect, List.countP_append, List.length_append, countP_trail hreports, ih]

/-- In a controller with a log whose writes succeed, every reconciliation of a run adds the lines of
the entries that are expected of it to the log, in their order and no others, and none at all
exactly if there was no ruleset to load. The applier is called as often as the log answers for a
ruleset. -/
theorem trail_logged (c : Controller σ α) {log : String} (hlog : c.auditPath = some log)
    (hreports : c.applier.Reports) (start : SnapshotStore) (triggers : List (Trigger σ α)) :
    (∀ t, let store := (c.run start triggers).store
      c.LogWrites log store t →
        c.Logged log t.now t.disk (c.trail store t) (c.react store t).2.disk ∧
        ((∀ text d a, (c.applier text (d, a)).2.1.bytes? log = d.bytes? log) →
          (∀ path, c.snapshotPath = some path → Disk.Apart path log) →
            ∃ lines, List.Forall₂ (LogEntry.ToldBy t.now) (c.trail store t) lines ∧
              ((c.react store t).2.disk.bytes? log).getD .empty =
                (t.disk.bytes? log).getD .empty ++
                  (String.join (lines.map (· ++ "\n"))).toUTF8) ∧
        (c.trail store t = [] ↔
          (c.react store t).1 = .upToDate ∨ (∃ e, t.fetched = .error e) ∨
            ∃ cluster drift st, t.fetched = .ok cluster ∧
              detect c.resolver cluster.policies store t.resolver = (some drift, st) ∧
                ∃ v st', build c.resolver cluster.policies cluster.services cluster.firewall st =
                  (.error v, st'))) ∧
    (c.collect c.trail start triggers).countP LogEntry.isAnswer =
      (c.collect c.calls start triggers).length := by
  refine ⟨?_, countP_collect_trail hreports start triggers⟩
  intro t store hwrites
  have hlogged : c.Logged log t.now t.disk (c.trail store t) (c.react store t).2.disk :=
    logged_react hlog hreports hwrites
  refine ⟨hlogged, ?_, trail_eq_nil_iff hreports⟩
  intro happlier hsnapshots
  exact hlogged.exists_lines happlier hsnapshots

theorem keeping_snapshots_apart (path : String)
    (hpath : (keeping "snapshots.json" "audit.log").snapshotPath = some path) :
    Disk.Apart path "audit.log" := by
  obtain rfl := Option.some.inj hpath
  exact (keeping_leavesAlone.log "audit.log" rfl).symm

/-- A ruleset of a valid and an invalid policy is loaded and its snapshots are saved. The one after
a change of the answers is given no answer by the applier: the invalid policy is logged again, and
then the failure, and nothing after it. -/
theorem trail_logged_after_timeout :
    let triggers := [Trigger.finding [blockAndName "web", blockAndName ""] [] (knowing ["a"])]
    let change := Trigger.finding [blockAndName "web", blockAndName ""] [] (knowing ["b"])
    let silent := { change with applier := { change.applier with mode := .silent } }
    let c := keeping "snapshots.json" "audit.log"
    let store := (c.run ∅ triggers).store
    ((c.collect c.trail ∅ triggers).map LogEntry.word =
        ["reject_policy", "apply_ruleset", "persist_snapshots"] ∧
      (c.collect c.trail ∅ triggers).countP LogEntry.isAnswer =
        (c.collect c.calls ∅ triggers).length) ∧
      (c.trail store silent).map (fun e => (e.word, e.success, e.details.map Prod.fst, e.error)) =
          [("reject_policy", false, ["policy"], some "validation failed"),
            ("apply_ruleset", false, ["checksum", "reason", "rule_count"],
              some "Apply timed out after 20s")] ∧
        c.LogWrites "audit.log" store silent ∧
          c.Logged "audit.log" silent.now silent.disk (c.trail store silent)
            (c.react store silent).2.disk ∧
          ∃ lines, List.Forall₂ (LogEntry.ToldBy silent.now) (c.trail store silent) lines ∧
            ((c.react store silent).2.disk.bytes? "audit.log").getD .empty =
              (silent.disk.bytes? "audit.log").getD .empty ++
                (String.join (lines.map (· ++ "\n"))).toUTF8 := by
  intro triggers change silent c store
  have hentries : (c.collect c.trail ∅ triggers).map LogEntry.word =
        ["reject_policy", "apply_ruleset", "persist_snapshots"] ∧
      (c.trail store silent).map (fun e => (e.word, e.success, e.details.map Prod.fst, e.error)) =
        [("reject_policy", false, ["policy"], some "validation failed"),
          ("apply_ruleset", false, ["checksum", "reason", "rule_count"],
            some "Apply timed out after 20s")] := by
    decide +kernel
  have hwrites : c.LogWrites "audit.log" store silent := by decide +kernel
  have hlog : c.auditPath = some "audit.log" := rfl
  obtain ⟨hlogged, hcount⟩ := trail_logged c hlog Rehearsal.reports_applier ∅ triggers
  obtain ⟨hadded, hlines, -⟩ := hlogged silent hwrites
  exact ⟨⟨hentries.1, hcount⟩, hentries.2, hwrites, hadded,
    hlines (fun _ _ _ => rfl) keeping_snapshots_apart⟩

end Controller

end ClusterFirewall
