import ClusterFirewall.Controller.Loader
import ClusterFirewall.Proofs.Disk.Beside

/-!
# Loading is all or nothing

A call of the loader has one of a few courses: the target could not be read, it held the text
already, a command refused the text, or the text was applied. In all of them the target holds either
what it held before or the text, and whatever was staged is gone. So long as nobody else writes the
target, it therefore holds what was loaded last, and a ruleset that is taken for the loaded one is
the loaded one.

The operations on the files are assumed not to fail for the paths themselves or the folders on the
way (`Loader.Ready`). What the commands do is open: every call may have a launcher of its own. A
command is named by its program and arguments, and it succeeds if it ends with status zero.

Main statements: `apply_course`, what a call can come to, and `load_all_or_nothing`.
-/

namespace ClusterFirewall

/-! ## Commands that succeed -/

/-- A command ends by itself on a disk, with status zero. -/
def Launcher.Accepts (launcher : Launcher) (c : Command) (d : Disk) : Prop :=
  ∃ stderr, launcher c d = .code 0 stderr

/-- Status zero is success, and nothing else is. -/
theorem Exit.check_eq_ok_iff (exit : Exit) (program : String) :
    exit.check program = .ok () ↔ ∃ stderr, exit = .code 0 stderr := by
  cases exit with
  | notStarted fault => simp [check]
  | signal number name stderr => simp [check]
  | code status stderr =>
    by_cases hstatus : status = 0
    · simp [check, hstatus]
    · simp [check, hstatus]

instance (launcher : Launcher) (c : Command) (d : Disk) : Decidable (launcher.Accepts c d) :=
  match h : launcher c d with
  | .code 0 stderr => isTrue ⟨stderr, h⟩
  | .code (_ + 1) _ => isFalse (by simp [Launcher.Accepts, h])
  | .notStarted _ => isFalse (by simp [Launcher.Accepts, h])
  | .signal .. => isFalse (by simp [Launcher.Accepts, h])

namespace Launcher

variable {launcher : Launcher} {c : Command} {d : Disk}

theorem run_of_accepts (h : launcher.Accepts c d) : launcher.run c d = ([⟨c, d⟩], .ok ()) := by
  obtain ⟨stderr, hexit⟩ := h
  simp [run, hexit, Exit.started, Exit.check]

theorem run_of_not_accepts (h : ¬launcher.Accepts c d) :
    ∃ launches e, launcher.run c d = (launches, .error e) ∧ launches <+: [⟨c, d⟩] := by
  -- It may have been started or not.
  cases hcheck : (launcher c d).check c.program with
  | ok u => exact absurd (((launcher c d).check_eq_ok_iff _).1 hcheck) h
  | error e =>
    refine ⟨_, e, Prod.ext rfl hcheck, ?_⟩
    dsimp only [run]
    split
    · exact List.prefix_rfl
    · exact List.nil_prefix

end Launcher

namespace Loader

variable {l : Loader} {launcher : Launcher} {d : Disk}

theorem checkCommand_ne_loadCommand (l : Loader) : l.checkCommand ≠ l.loadCommand := by
  intro h
  have hextra : ["-c", "-f", l.staging] = ["-f", l.staging] :=
    List.append_cancel_left (congrArg Command.arguments h)
  simp at hextra

/-- Both commands, started on one disk. -/
def bothLaunches (l : Loader) (d : Disk) : List Launch :=
  [⟨l.checkCommand, d⟩, ⟨l.loadCommand, d⟩]

/-- Both commands succeed; or the load command is not started; or it is, after a check that
succeeded, and does not succeed itself. -/
theorem runCommands_cases (l : Loader) (launcher : Launcher) (d : Disk) :
    (l.runCommands launcher d = (l.bothLaunches d, .ok ()) ∧
      launcher.Accepts l.checkCommand d ∧ launcher.Accepts l.loadCommand d) ∨
    (∃ launches e, l.runCommands launcher d = (launches, .error e) ∧
      launches <+: [⟨l.checkCommand, d⟩] ∧
        ¬(launcher.Accepts l.checkCommand d ∧ launcher.Accepts l.loadCommand d)) ∨
    ∃ e, l.runCommands launcher d = (l.bothLaunches d, .error e) ∧
      launcher.Accepts l.checkCommand d ∧ ¬launcher.Accepts l.loadCommand d := by
  by_cases hcheck : launcher.Accepts l.checkCommand d
  · have hrun := Launcher.run_of_accepts hcheck
    by_cases hload : launcher.Accepts l.loadCommand d
    · refine .inl ⟨?_, hcheck, hload⟩
      rw [runCommands, hrun, Launcher.run_of_accepts hload]
      rfl
    · obtain ⟨launches, e, hload', hprefix⟩ := Launcher.run_of_not_accepts hload
      have hruns : l.runCommands launcher d = (⟨l.checkCommand, d⟩ :: launches, .error e) := by
        rw [runCommands, hrun, hload']
        rfl
      -- The load command leaves a launch behind only if it was started.
      rcases List.prefix_cons_iff.1 hprefix with rfl | ⟨rest, rfl, hrest⟩
      · exact .inr (.inl ⟨_, e, hruns, List.prefix_rfl, fun h => hload h.2⟩)
      · obtain rfl := List.prefix_nil.1 hrest
        exact .inr (.inr ⟨e, hruns, hcheck, hload⟩)
  · obtain ⟨launches, e, hcheck', hprefix⟩ := Launcher.run_of_not_accepts hcheck
    refine .inr (.inl ⟨launches, e, ?_, hprefix, fun h => hcheck h.1⟩)
    rw [runCommands, hcheck']

/-! ## The files of a loader -/

/-- The target and the file beside it can be replaced: both paths lead to places without folders,
in folders that are there. -/
structure Ready (l : Loader) (d : Disk) : Prop where
  target : (d.newPlace l.target).isOk
  staging : (d.newPlace l.staging).isOk
  scratch : (d.resolve (d.scratchPath l.staging)).isOk

/-- A ruleset waits beside the target, which is as it was. -/
structure Staged (l : Loader) (d : Disk) (text : String) (staged : Disk) : Prop where
  ready : l.Ready staged
  find : staged.find l.staging = .ok (.file text.toUTF8 0o600)
  target : staged.bytes? l.target = d.bytes? l.target

/-- Nothing stands beside the target, which holds these bytes. -/
structure Clear (l : Loader) (content : Option ByteArray) (d : Disk) : Prop where
  ready : l.Ready d
  find : d.find l.staging = .error .notFound
  target : d.bytes? l.target = content

theorem Ready.of_sameFolders {d' : Disk} (h : l.Ready d) (hsame : d.SameFolders d') :
    l.Ready d' := by
  obtain ⟨p, hp⟩ := isOk_iff_exists.1 h.target
  obtain ⟨q, hq⟩ := isOk_iff_exists.1 h.staging
  obtain ⟨dest, hdest⟩ := isOk_iff_exists.1 h.scratch
  constructor
  · exact isOk_iff_exists.2 ⟨p, (hsame.newPlace_iff l.target p).2 hp⟩
  · exact isOk_iff_exists.2 ⟨q, (hsame.newPlace_iff l.staging q).2 hq⟩
  · rw [hsame.scratchPath_eq]
    exact isOk_iff_exists.2 ⟨dest, (hsame.resolve_iff _ dest).2 hdest⟩

theorem Ready.apart (h : l.Ready d) : Disk.Apart l.staging l.target := by
  obtain ⟨p, hp⟩ := isOk_iff_exists.1 h.target
  have hsuffix : '/' ∉ ".staging".toList := by decide
  have hlong : 2 ≤ ".staging".length := by decide
  exact Disk.apart_beside hp hsuffix hlong

theorem Ready.exists_staged (h : l.Ready d) (text : String) :
    ∃ staged, d.writeAtomic l.staging text.toUTF8 = .ok staged ∧ l.Staged d text staged := by
  obtain ⟨p, hp⟩ := isOk_iff_exists.1 h.staging
  obtain ⟨dest, hdest⟩ := isOk_iff_exists.1 h.scratch
  obtain ⟨staged, hwrite, hsame, hfind⟩ := Disk.exists_writeAtomic hdest hp text.toUTF8
  exact ⟨staged, hwrite, h.of_sameFolders hsame, hfind,
    Disk.bytes?_writeAtomic_of_apart hwrite h.apart⟩

theorem Staged.bytes? {text : String} {staged : Disk} (h : l.Staged d text staged) :
    staged.bytes? l.staging = some text.toUTF8 :=
  Disk.bytes?_of_find h.find

theorem Staged.commit {text : String} {staged : Disk} (h : l.Staged d text staged)
    (launches : List Launch) : ∃ d', l.commit launches staged text =
      ⟨d', launches, .ok (.applied (checksum text))⟩ ∧ l.Clear (some text.toUTF8) d' := by
  obtain ⟨p, hp⟩ := isOk_iff_exists.1 h.ready.target
  obtain ⟨d', hrename, hsame, hfind, hbytes⟩ := Disk.exists_rename h.find hp h.ready.apart
  have hclear : l.Clear (some text.toUTF8) d' := ⟨h.ready.of_sameFolders hsame, hfind, hbytes⟩
  refine ⟨d', ?_, hclear⟩
  unfold Loader.commit
  rw [hrename]

theorem Staged.dropStaging {text : String} {staged : Disk} (h : l.Staged d text staged) :
    l.Clear (d.bytes? l.target) (l.dropStaging staged) := by
  obtain ⟨d', hremove, hsame, hfind⟩ := Disk.exists_remove h.find
  have hbytes : d'.bytes? l.target = d.bytes? l.target := by
    rw [Disk.bytes?_remove hremove h.ready.apart, h.target]
  have hdrop : l.dropStaging staged = d' := by
    unfold Loader.dropStaging
    rw [hremove]
  rw [hdrop]
  exact ⟨h.ready.of_sameFolders hsame, hfind, hbytes⟩

/-! ## The course of a call -/

/-- What a call of the loader can come to. -/
inductive Course (l : Loader) (launcher : Launcher) (d : Disk) (text : String) :
    LoadResult → Prop where
  /-- The target cannot be read. -/
  | unreadable {e : Error} (hprevious : l.previous d = .error e) :
      Course l launcher d text ⟨d, [], .error e⟩
  /-- The target holds the text. -/
  | unchanged (hsame : d.bytes? l.target = some text.toUTF8) :
      Course l launcher d text ⟨d, [], .ok (.unchanged (checksum text))⟩
  /-- A command cannot be started, or the check does not succeed; what was staged is dropped. -/
  | refused {staged d' : Disk} {launches : List Launch} {e : Error}
      (hother : d.bytes? l.target ≠ some text.toUTF8) (hdry : l.dryRun = false)
      (hstaged : l.Staged d text staged) (hlaunches : launches <+: [⟨l.checkCommand, staged⟩])
      (hrefused : ¬(launcher.Accepts l.checkCommand staged ∧ launcher.Accepts l.loadCommand staged))
      (hclear : l.Clear (d.bytes? l.target) d') :
      Course l launcher d text ⟨d', launches, .error e⟩
  /-- The check succeeds and the loading does not; what was staged is dropped. -/
  | failed {staged d' : Disk} {e : Error}
      (hother : d.bytes? l.target ≠ some text.toUTF8) (hdry : l.dryRun = false)
      (hstaged : l.Staged d text staged) (hcheck : launcher.Accepts l.checkCommand staged)
      (hload : ¬launcher.Accepts l.loadCommand staged)
      (hclear : l.Clear (d.bytes? l.target) d') :
      Course l launcher d text ⟨d', l.bothLaunches staged, .error e⟩
  /-- The text is put in the target's place without a command. -/
  | rehearsed {d' : Disk} (hother : d.bytes? l.target ≠ some text.toUTF8) (hdry : l.dryRun = true)
      (hclear : l.Clear (some text.toUTF8) d') :
      Course l launcher d text ⟨d', [], .ok (.applied (checksum text))⟩
  /-- Both commands succeed, and the text is put in the target's place. -/
  | loaded {staged d' : Disk}
      (hother : d.bytes? l.target ≠ some text.toUTF8) (hdry : l.dryRun = false)
      (hstaged : l.Staged d text staged) (hcheck : launcher.Accepts l.checkCommand staged)
      (hload : launcher.Accepts l.loadCommand staged)
      (hclear : l.Clear (some text.toUTF8) d') :
      Course l launcher d text
        ⟨d', l.bothLaunches staged, .ok (.applied (checksum text))⟩

theorem previous_eq_iff {text : String} :
    l.previous d = .ok (some text) ↔ d.bytes? l.target = some text.toUTF8 := by
  rw [← Disk.readText_eq_ok_iff, previous]
  split <;> simp_all

theorem previous_of_missing (h : d.find l.target = .error .notFound) : l.previous d = .ok none := by
  have hread : d.readText l.target = .error .notFound := by
    rw [Disk.readText, Disk.readBytes, h]
    rfl
  rw [previous, hread]

/-- A staged ruleset is never found unchanged. -/
theorem loadStaged_ne_unchanged (launcher : Launcher) (staged : Disk) (text sum : String) :
    (l.loadStaged launcher staged text).result ≠ .ok (.unchanged sum) := by
  have hcommit : ∀ launches, (l.commit launches staged text).result ≠ .ok (.unchanged sum) := by
    intro launches
    unfold commit
    split <;> simp
  unfold loadStaged
  split
  · exact hcommit _
  · split
    · exact hcommit _
    · exact nofun

/-- A ruleset is found unchanged exactly if the target holds its text, whatever else is on the
disk. -/
theorem apply_unchanged_iff (launcher : Launcher) (text : String) :
    (∃ sum, (l.apply launcher d text).result = .ok (.unchanged sum)) ↔
      d.bytes? l.target = some text.toUTF8 := by
  rw [← previous_eq_iff]
  unfold apply
  cases l.previous d with
  | error e => simp
  | ok previous =>
    by_cases hsame : previous = some text
    · simp [hsame]
    · have hother : Except.ok previous ≠ (Except.ok (some text) : Except Error _) :=
        fun h => hsame (Except.ok.inj h)
      simp only [if_neg hsame, hother, iff_false, not_exists]
      intro sum
      cases d.writeAtomic l.staging text.toUTF8 with
      | error f => simp
      | ok staged => exact l.loadStaged_ne_unchanged launcher staged text sum

theorem loadStaged_course {text : String} {staged : Disk} (launcher : Launcher)
    (hother : d.bytes? l.target ≠ some text.toUTF8) (hstaged : l.Staged d text staged) :
    l.Course launcher d text (l.loadStaged launcher staged text) := by
  unfold loadStaged
  cases hdry : l.dryRun with
  | true =>
    obtain ⟨d', hcommit, hclear⟩ := hstaged.commit []
    rw [if_pos rfl, hcommit]
    exact .rehearsed hother hdry hclear
  | false =>
    -- The operations on the files succeed, so the commands alone decide.
    rw [if_neg (by decide)]
    rcases l.runCommands_cases launcher staged with
      ⟨hrun, hcheck, hload⟩ | ⟨launches, e, hrun, hlaunches, hrefused⟩ |
        ⟨e, hrun, hcheck, hload⟩
    · obtain ⟨d', hcommit, hclear⟩ := hstaged.commit (l.bothLaunches staged)
      simp only [hrun, hcommit]
      exact .loaded hother hdry hstaged hcheck hload hclear
    · simp only [hrun]
      exact .refused hother hdry hstaged hlaunches hrefused hstaged.dropStaging
    · simp only [hrun]
      exact .failed hother hdry hstaged hcheck hload hstaged.dropStaging

theorem apply_course (h : l.Ready d) (launcher : Launcher) (text : String) :
    l.Course launcher d text (l.apply launcher d text) := by
  unfold apply
  cases hprevious : l.previous d with
  | error e => exact .unreadable hprevious
  | ok previous =>
    by_cases hsame : previous = some text
    · rw [hsame] at hprevious
      simp only [if_pos hsame]
      exact .unchanged (previous_eq_iff.1 hprevious)
    · have hother : d.bytes? l.target ≠ some text.toUTF8 := by
        intro hbytes
        rw [previous_eq_iff.2 hbytes] at hprevious
        exact hsame (Except.ok.inj hprevious).symm
      obtain ⟨staged, hwrite, hstaged⟩ := h.exists_staged text
      simp only [if_neg hsame, hwrite]
      exact loadStaged_course launcher hother hstaged

section Consequences

variable {text : String} {r : LoadResult}

theorem Course.ready (h : l.Course launcher d text r) (hready : l.Ready d) : l.Ready r.disk := by
  cases h with
  | unreadable => exact hready
  | unchanged => exact hready
  | refused _ _ _ _ _ hclear => exact hclear.ready
  | failed _ _ _ _ _ hclear => exact hclear.ready
  | rehearsed _ _ hclear => exact hclear.ready
  | loaded _ _ _ _ _ hclear => exact hclear.ready

/-- An error leaves the target as it was, and nothing beside it once a command was started. -/
theorem Course.of_error (h : l.Course launcher d text r) {e : Error} (he : r.result = .error e) :
    r.disk.bytes? l.target = d.bytes? l.target ∧
      (r.launches ≠ [] → r.disk.find l.staging = .error .notFound) := by
  cases h with
  | unreadable => exact ⟨rfl, fun hne => absurd rfl hne⟩
  | unchanged => cases he
  | refused _ _ _ _ _ hclear => exact ⟨hclear.target, fun _ => hclear.find⟩
  | failed _ _ _ _ _ hclear => exact ⟨hclear.target, fun _ => hclear.find⟩
  | rehearsed => cases he
  | loaded => cases he

theorem Course.unchanged_iff (h : l.Course launcher d text r) :
    (∃ sum, r.result = .ok (.unchanged sum)) ↔ d.bytes? l.target = some text.toUTF8 := by
  cases h with
  | unchanged hsame => exact ⟨fun _ => hsame, fun _ => ⟨_, rfl⟩⟩
  | unreadable hprevious =>
    -- A target that holds a text can be read.
    refine ⟨nofun, fun hsame => ?_⟩
    rw [previous_eq_iff.2 hsame] at hprevious
    cases hprevious
  | refused hother => exact ⟨nofun, fun hsame => absurd hsame hother⟩
  | failed hother => exact ⟨nofun, fun hsame => absurd hsame hother⟩
  | rehearsed hother => exact ⟨nofun, fun hsame => absurd hsame hother⟩
  | loaded hother => exact ⟨nofun, fun hsame => absurd hsame hother⟩

theorem Course.of_unchanged (h : l.Course launcher d text r) {sum : String}
    (hr : r.result = .ok (.unchanged sum)) : r.launches = [] ∧ r.disk = d := by
  cases h with
  | unchanged => exact ⟨rfl, rfl⟩
  | unreadable => cases hr
  | refused => cases hr
  | failed => cases hr
  | rehearsed => cases hr
  | loaded => cases hr

/-- What is applied is in the target, with nothing beside it; and both commands succeeded on it,
unless they are left out. -/
theorem Course.of_applied (h : l.Course launcher d text r) {sum : String}
    (hr : r.result = .ok (.applied sum)) :
    l.Clear (some text.toUTF8) r.disk ∧
      (l.dryRun = false → ∃ staged, l.Staged d text staged ∧ r.launches = l.bothLaunches staged ∧
        launcher.Accepts l.checkCommand staged ∧ launcher.Accepts l.loadCommand staged) := by
  cases h with
  | unreadable => cases hr
  | unchanged => cases hr
  | refused => cases hr
  | failed => cases hr
  | rehearsed _ hdry hclear =>
    refine ⟨hclear, fun hwet => ?_⟩
    rw [hdry] at hwet
    cases hwet
  | loaded _ _ hstaged hcheck hload hclear =>
    exact ⟨hclear, fun _ => ⟨_, hstaged, rfl, hcheck, hload⟩⟩

/-- Another text is applied if the target can be read and no command stands in the way. -/
theorem Course.applied_of_accepts (h : l.Course launcher d text r)
    (hother : d.find l.target = .error .notFound ∨
      ∃ old, old ≠ text ∧ d.bytes? l.target = some old.toUTF8)
    (haccepts : l.dryRun = true ∨ ∀ staged, staged.bytes? l.staging = some text.toUTF8 →
      launcher.Accepts l.checkCommand staged ∧ launcher.Accepts l.loadCommand staged) :
    ∃ sum, r.result = .ok (.applied sum) := by
  have hprevious : ∃ previous, l.previous d = .ok previous ∧ previous ≠ some text := by
    obtain hmissing | ⟨old, hne, hbytes⟩ := hother
    · exact ⟨none, previous_of_missing hmissing, nofun⟩
    · exact ⟨some old, previous_eq_iff.2 hbytes, fun h => hne (Option.some.inj h)⟩
  obtain ⟨previous, hprevious, hne⟩ := hprevious
  cases h with
  | unreadable hfault =>
    rw [hprevious] at hfault
    cases hfault
  | unchanged hsame =>
    rw [previous_eq_iff.2 hsame] at hprevious
    exact absurd (Except.ok.inj hprevious).symm hne
  | refused _ hdry hstaged _ hrefused =>
    have hboth := haccepts.resolve_left (by simp [hdry]) _ hstaged.bytes?
    exact absurd hboth hrefused
  | failed _ hdry hstaged _ hload =>
    have hboth := haccepts.resolve_left (by simp [hdry]) _ hstaged.bytes?
    exact absurd hboth.2 hload
  | rehearsed => exact ⟨_, rfl⟩
  | loaded => exact ⟨_, rfl⟩

/-- No command is started, or the check is, or both are and the check succeeded; and they find the
same disk, where the text is staged and the target is as it was. -/
theorem Course.launches_cases (h : l.Course launcher d text r) :
    r.launches = [] ∨ ∃ staged, staged.bytes? l.staging = some text.toUTF8 ∧
      staged.bytes? l.target = d.bytes? l.target ∧
        (r.launches = [⟨l.checkCommand, staged⟩] ∨
          r.launches = l.bothLaunches staged ∧ launcher.Accepts l.checkCommand staged) := by
  cases h with
  | unreadable => exact .inl rfl
  | unchanged => exact .inl rfl
  | rehearsed => exact .inl rfl
  | refused _ _ hstaged hlaunches =>
    rcases List.prefix_cons_iff.1 hlaunches with hnone | ⟨rest, hcheck, hrest⟩
    · exact .inl hnone
    · obtain rfl := List.prefix_nil.1 hrest
      exact .inr ⟨_, hstaged.bytes?, hstaged.target, .inl hcheck⟩
  | failed _ _ hstaged hcheck =>
    exact .inr ⟨_, hstaged.bytes?, hstaged.target, .inr ⟨rfl, hcheck⟩⟩
  | loaded _ _ hstaged hcheck =>
    exact .inr ⟨_, hstaged.bytes?, hstaged.target, .inr ⟨rfl, hcheck⟩⟩

theorem Course.launches_of_dryRun (h : l.Course launcher d text r) (hdry : l.dryRun = true) :
    r.launches = [] := by
  cases h with
  | unreadable => rfl
  | unchanged => rfl
  | rehearsed => rfl
  | refused _ hwet => rw [hdry] at hwet; cases hwet
  | failed _ hwet => rw [hdry] at hwet; cases hwet
  | loaded _ hwet => rw [hdry] at hwet; cases hwet

/-! ## What was loaded last -/

/-- The bytes that were loaded last, after these launches: those that were staged when the program
was started to load them and ended with status zero. -/
def loadedAfter (l : Loader) (launcher : Launcher) (launches : List Launch)
    (loaded : Option ByteArray) : Option ByteArray :=
  launches.foldl (fun loaded launch =>
    if launch.command = ⟨l.program, l.arguments ++ ["-f", l.staging]⟩ ∧
        launcher.Accepts launch.command launch.disk then
      launch.disk.bytes? l.staging
    else loaded) loaded

theorem loadedAfter_of_check {launches : List Launch} {staged : Disk}
    (h : launches <+: [⟨l.checkCommand, staged⟩]) (loaded : Option ByteArray) :
    l.loadedAfter launcher launches loaded = loaded := by
  rcases List.prefix_cons_iff.1 h with rfl | ⟨rest, rfl, hrest⟩
  · rfl
  · obtain rfl := List.prefix_nil.1 hrest
    exact if_neg fun hload => l.checkCommand_ne_loadCommand hload.1

theorem loadedAfter_both (staged : Disk) (loaded : Option ByteArray) :
    l.loadedAfter launcher (l.bothLaunches staged) loaded =
      if launcher.Accepts l.loadCommand staged then staged.bytes? l.staging else loaded := by
  have hcheck : l.loadedAfter launcher [⟨l.checkCommand, staged⟩] loaded = loaded :=
    loadedAfter_of_check List.prefix_rfl loaded
  -- The launches count one after the other, and the check does not count.
  have hboth : l.loadedAfter launcher (l.bothLaunches staged) loaded =
      l.loadedAfter launcher [⟨l.loadCommand, staged⟩]
        (l.loadedAfter launcher [⟨l.checkCommand, staged⟩] loaded) := rfl
  rw [hboth, hcheck]
  by_cases hload : launcher.Accepts l.loadCommand staged
  · rw [if_pos hload]
    exact if_pos ⟨rfl, hload⟩
  · rw [if_neg hload]
    exact if_neg fun h => hload h.2

/-- What a call that runs its commands does to the target and to what was loaded: nothing, or the
text is both. -/
theorem Course.target_and_loaded (h : l.Course launcher d text r) (hwet : l.dryRun = false)
    (loaded : Option ByteArray) :
    (r.disk.bytes? l.target = d.bytes? l.target ∧
      l.loadedAfter launcher r.launches loaded = loaded) ∨
    (r.disk.bytes? l.target = some text.toUTF8 ∧
      l.loadedAfter launcher r.launches loaded = some text.toUTF8) := by
  cases h with
  | unreadable => exact .inl ⟨rfl, rfl⟩
  | unchanged => exact .inl ⟨rfl, rfl⟩
  | refused _ _ _ hlaunches _ hclear =>
    exact .inl ⟨hclear.target, loadedAfter_of_check hlaunches loaded⟩
  | failed _ _ _ _ hload hclear =>
    refine .inl ⟨hclear.target, ?_⟩
    rw [loadedAfter_both, if_neg hload]
  | rehearsed _ hdry =>
    rw [hdry] at hwet
    cases hwet
  | loaded _ _ hstaged _ hload hclear =>
    refine .inr ⟨hclear.target, ?_⟩
    rw [loadedAfter_both, if_pos hload, hstaged.bytes?]

end Consequences

/-! ## Runs -/

/-- The files, and the bytes that were loaded last. -/
structure Host where
  /-- The files. -/
  disk : Disk
  /-- What was loaded last, if anything was. -/
  loaded : Option ByteArray

/-- The host after a call. -/
def next (l : Loader) (host : Host) (launcher : Launcher) (text : String) : Host where
  disk := (l.apply launcher host.disk text).disk
  loaded := l.loadedAfter launcher (l.apply launcher host.disk text).launches host.loaded

/-- The hosts that calls come to. Between two calls others may write what they like but the target,
as long as the loader's files can be written afterwards. -/
inductive Reaches (l : Loader) (start : Host) : Host → Prop where
  | refl : Reaches l start start
  | call {host : Host} (launcher : Launcher) (text : String) :
      Reaches l start host → Reaches l start (l.next host launcher text)
  | others {host : Host} {d : Disk} (hready : l.Ready d)
      (htarget : d.bytes? l.target = host.disk.bytes? l.target) :
      Reaches l start host → Reaches l start { host with disk := d }

theorem Reaches.ready {start host : Host} (hreach : l.Reaches start host)
    (hready : l.Ready start.disk) : l.Ready host.disk := by
  induction hreach with
  | refl => exact hready
  | call launcher text _ ih => exact (apply_course ih launcher text).ready ih
  | others hready' => exact hready'

/-- The target holds what was loaded last. -/
def InStep (l : Loader) (host : Host) : Prop :=
  host.loaded.isSome ∧ host.disk.bytes? l.target = host.loaded

theorem inStep_next {host : Host} (hstep : l.InStep host) (hready : l.Ready host.disk)
    (hwet : l.dryRun = false) (launcher : Launcher) (text : String) :
    l.InStep (l.next host launcher text) := by
  simp only [InStep, next]
  rcases (apply_course hready launcher text).target_and_loaded hwet host.loaded with
    ⟨htarget, hloaded⟩ | ⟨htarget, hloaded⟩
  · rw [htarget, hloaded]
    exact hstep
  · rw [htarget, hloaded]
    exact ⟨rfl, rfl⟩

theorem inStep_of_applied {host : Host} (hready : l.Ready host.disk) (hwet : l.dryRun = false)
    {launcher : Launcher} {text sum : String}
    (happlied : (l.apply launcher host.disk text).result = .ok (.applied sum)) :
    l.InStep (l.next host launcher text) := by
  obtain ⟨hclear, hran⟩ := (apply_course hready launcher text).of_applied happlied
  obtain ⟨staged, hstaged, hlaunches, -, hload⟩ := hran hwet
  simp only [InStep, next]
  rw [hclear.target, hlaunches, loadedAfter_both, if_pos hload, hstaged.bytes?]
  exact ⟨rfl, rfl⟩

/-- Once the target holds what was loaded last, it does so ever after. -/
theorem InStep.of_reaches {start host : Host} (hreach : l.Reaches start host)
    (hstep : l.InStep start) (hready : l.Ready start.disk) (hwet : l.dryRun = false) :
    l.InStep host := by
  -- A call changes the target and what was loaded together; others change neither.
  induction hreach with
  | refl => exact hstep
  | call launcher text hbefore ih => exact inStep_next ih (hbefore.ready hready) hwet launcher text
  | others _ htarget _ ih => exact ⟨ih.1, htarget.trans ih.2⟩

/-- The file that is staged stands in the folder of the target, under its name and `.staging`. -/
theorem Ready.exists_folder (h : l.Ready d) : ∃ folder name,
    d.newPlace l.target = .ok (folder ++ [name]) ∧
      d.newPlace l.staging = .ok (folder ++ [name ++ ".staging"]) := by
  obtain ⟨p, hp⟩ := isOk_iff_exists.1 h.target
  obtain ⟨q, hq⟩ := isOk_iff_exists.1 h.staging
  obtain ⟨folder, name, rfl, rfl⟩ :=
    Disk.exists_folder_of_beside hp hq (by decide) (by decide)
  exact ⟨folder, name, hp, hq⟩

/-- In every call, on whatever calls and foreign writes before it, the target is left as it was or
holds the text. The staged file is the target's name with `.staging` in the same folder. An error
leaves the target as it was, with nothing beside it once a command was started. The text is taken
for the loaded one exactly if the target holds it, and then nothing is done. What is applied is in
the target, after both commands ended with status zero on it; and another text is applied if they
do, or are left out. No other command than these two is ever started, the load command only after
a check that succeeded, and in a dry run none is. From the first text that is applied, the target
always holds what was loaded last. -/
theorem load_all_or_nothing {start host : Host} (hready : l.Ready start.disk)
    (hreach : l.Reaches start host) (launcher : Launcher) (text : String) :
    let r := l.apply launcher host.disk text
    let check : Command := ⟨l.program, l.arguments ++ ["-c", "-f", l.staging]⟩
    let load : Command := ⟨l.program, l.arguments ++ ["-f", l.staging]⟩
    (∃ folder name, host.disk.newPlace l.target = .ok (folder ++ [name]) ∧
      host.disk.newPlace l.staging = .ok (folder ++ [name ++ ".staging"])) ∧
    (∀ e, r.result = .error e → r.disk.bytes? l.target = host.disk.bytes? l.target ∧
      (r.launches ≠ [] → r.disk.find l.staging = .error .notFound)) ∧
    ((∃ sum, r.result = .ok (.unchanged sum)) ↔ host.disk.bytes? l.target = some text.toUTF8) ∧
    (∀ sum, r.result = .ok (.unchanged sum) → r.launches = [] ∧ r.disk = host.disk) ∧
    (∀ sum, r.result = .ok (.applied sum) →
      r.disk.bytes? l.target = some text.toUTF8 ∧ r.disk.find l.staging = .error .notFound ∧
        (l.dryRun = false → ∃ staged, staged.bytes? l.staging = some text.toUTF8 ∧
          r.launches = [⟨check, staged⟩, ⟨load, staged⟩] ∧
            (∃ stderr, launcher check staged = .code 0 stderr) ∧
              ∃ stderr, launcher load staged = .code 0 stderr)) ∧
    ((host.disk.find l.target = .error .notFound ∨
        ∃ old, old ≠ text ∧ host.disk.bytes? l.target = some old.toUTF8) →
      (l.dryRun = true ∨ ∀ staged, staged.bytes? l.staging = some text.toUTF8 →
        (∃ stderr, launcher check staged = .code 0 stderr) ∧
          ∃ stderr, launcher load staged = .code 0 stderr) →
          ∃ sum, r.result = .ok (.applied sum)) ∧
    (r.launches = [] ∨ ∃ staged, staged.bytes? l.staging = some text.toUTF8 ∧
      staged.bytes? l.target = host.disk.bytes? l.target ∧
        (r.launches = [⟨check, staged⟩] ∨ r.launches = [⟨check, staged⟩, ⟨load, staged⟩] ∧
          ∃ stderr, launcher check staged = .code 0 stderr)) ∧
    (l.dryRun = true → r.launches = []) ∧
    (l.dryRun = false → ∀ sum, r.result = .ok (.applied sum) →
      ∀ h', l.Reaches (l.next host launcher text) h' →
        h'.loaded.isSome ∧ h'.disk.bytes? l.target = h'.loaded) := by
  intro r check load
  have hhere : l.Ready host.disk := hreach.ready hready
  have hcourse : l.Course launcher host.disk text r := apply_course hhere launcher text
  refine ⟨hhere.exists_folder, fun _ => hcourse.of_error, hcourse.unchanged_iff,
    fun _ => hcourse.of_unchanged, ?applied, hcourse.applied_of_accepts, hcourse.launches_cases,
    hcourse.launches_of_dryRun, ?run⟩
  case applied =>
    intro sum hr
    obtain ⟨hclear, hran⟩ := hcourse.of_applied hr
    refine ⟨hclear.target, hclear.find, fun hwet => ?_⟩
    obtain ⟨staged, hstaged, hlaunches, hcheck, hload⟩ := hran hwet
    exact ⟨staged, hstaged.bytes?, hlaunches, hcheck, hload⟩
  case run =>
    intro hwet sum hr h' hreach'
    exact (inStep_of_applied hhere hwet hr).of_reaches hreach' (hcourse.ready hhere) hwet

/-- A text that is loaded stays in the target when the next one passes the check and is not
loaded. -/
theorem load_all_or_nothing_after_failure :
    let l : Loader := ⟨"nft", [], "firewall.nft", false⟩
    let accepting : Launcher := fun _ _ => .code 0 .empty
    let failing : Launcher := fun c _ =>
      if c = ⟨"nft", ["-c", "-f", "firewall.nft.staging"]⟩ then .code 0 .empty else .code 1 .empty
    let host := l.next ⟨⟨[], []⟩, none⟩ accepting "table inet firewall"
    let r := l.apply failing host.disk "table inet other"
    r.launches.map Launch.command = [⟨"nft", ["-c", "-f", "firewall.nft.staging"]⟩,
        ⟨"nft", ["-f", "firewall.nft.staging"]⟩] ∧ r.result.isOk = false ∧
      r.disk.bytes? l.target = some "table inet firewall".toUTF8 ∧
        r.disk.find l.staging = .error .notFound := by
  intro l accepting failing host r
  have hready : l.Ready (Host.mk ⟨[], []⟩ none).disk :=
    ⟨by decide +kernel, by decide +kernel, by decide +kernel⟩
  have hran : r.launches.map Launch.command = [⟨"nft", ["-c", "-f", "firewall.nft.staging"]⟩,
      ⟨"nft", ["-f", "firewall.nft.staging"]⟩] ∧ r.result.isOk = false := by
    decide +kernel
  have hfirst : host.disk.bytes? l.target = some "table inet firewall".toUTF8 := by
    decide +kernel
  obtain ⟨-, herror, -⟩ := load_all_or_nothing hready
    (Reaches.refl.call accepting "table inet firewall") failing "table inet other"
  cases hr : r.result with
  | ok outcome =>
    rw [hr] at hran
    cases hran.2
  | error e =>
    obtain ⟨htarget, hstaging⟩ := herror e hr
    refine ⟨hran.1, rfl, htarget.trans hfirst, hstaging ?_⟩
    intro hnone
    have hcommands := hran.1
    rw [hnone] at hcommands
    cases hcommands

end Loader

end ClusterFirewall
