import ClusterFirewall.Controller.Reconciliation

/-!
# The courses of a reconciliation

A reconciliation has five courses: the cluster could not be fetched, nothing drifted, no ruleset
could be built, the ruleset was refused or not answered in time, the ruleset was accepted. Only the
last one changes the snapshots. `reconcile_course` is the one place where the steps of a
reconciliation are taken apart; everything about its runs is derived from it.
-/

namespace ClusterFirewall

/-- Whether the ruleset is the loaded one now. -/
def Outcome.isSuccess : Outcome → Bool
  | .applied _ _ => true
  | .unchanged _ _ => true
  | .upToDate => false
  | .failed _ => false

theorem Pending.outcome_ne_upToDate (p : Pending) (answer : Except Error ApplyOutcome) :
    p.outcome answer ≠ .upToDate := by
  intro h
  cases answer with
  | error e => cases h
  | ok o => cases o <;> cases h

namespace Controller

variable {σ α : Type}

/-- The courses of a reconciliation: what was prepared, the outcome, and the state afterwards. -/
inductive Course (c : Controller σ α) (fetched : Except Error ClusterState)
    (s : ControllerState σ α) : Preparation → Outcome → ControllerState σ α → Prop where
  | unfetched {e : Error} (hf : fetched = .error e) :
      Course c fetched s (.settled (.failed e)) (.failed e) s
  | upToDate {cluster : ClusterState} {st : σ} (hf : fetched = .ok cluster)
      (hd : detect c.resolver cluster.policies s.store s.resolver = (none, st)) :
      Course c fetched s (.settled .upToDate) .upToDate { s with resolver := st }
  | unbuilt {cluster : ClusterState} {drift : Drift} {v : Violation} {st st' : σ}
      (hf : fetched = .ok cluster)
      (hd : detect c.resolver cluster.policies s.store s.resolver = (some drift, st))
      (hb : build c.resolver cluster.policies cluster.services cluster.firewall st =
        (.error v, st')) :
      Course c fetched s (.settled (.failed (.validation v))) (.failed (.validation v))
        { s with resolver := st' }
  | refused {cluster : ClusterState} {drift : Drift} {b : Build} {st st' : σ} {e : Error}
      {s' : ControllerState σ α} (hf : fetched = .ok cluster)
      (hd : detect c.resolver cluster.policies s.store s.resolver = (some drift, st))
      (hb : build c.resolver cluster.policies cluster.services cluster.firewall st = (.ok b, st'))
      (hstore : s'.store = s.store) :
      Course c fetched s (.pending ⟨drift.text, b⟩) (.failed e) s'
  | accepted {cluster : ClusterState} {drift : Drift} {b : Build} {st st' : σ} {outcome : Outcome}
      {s' : ControllerState σ α} (hf : fetched = .ok cluster)
      (hd : detect c.resolver cluster.policies s.store s.resolver = (some drift, st))
      (hb : build c.resolver cluster.policies cluster.services cluster.firewall st = (.ok b, st'))
      (hsuccess : outcome.isSuccess) (hstore : s'.store = s.store.recordAll (b.applied ++ b.skipped))
      (hresolver : s'.resolver = st') :
      Course c fetched s (.pending ⟨drift.text, b⟩) outcome s'

/-! ## The steps before a ruleset is handed over -/

theorem begin_settled {c : Controller σ α} {now : Instant} {fetched : Except Error ClusterState}
    {s s' : ControllerState σ α} {outcome : Outcome}
    (h : c.begin now fetched s = (.settled outcome, s')) : s'.disk = s.disk := by
  unfold begin at h
  split at h
  · obtain ⟨-, rfl⟩ := Prod.mk.inj h
    rfl
  · split at h
    · obtain ⟨-, rfl⟩ := Prod.mk.inj h
      rfl
    · cases h

theorem plan_pending {r : Resolver σ} {store : SnapshotStore} {cluster : ClusterState} {st st' : σ}
    {p : Pending} (h : plan r store cluster st = (.pending p, st')) :
    ∃ drift st₁, p.reason = drift.text ∧ detect r cluster.policies store st = (some drift, st₁) ∧
      build r cluster.policies cluster.services cluster.firewall st₁ = (.ok p.build, st') := by
  unfold plan at h
  split at h
  · cases h
  · rename_i drift st₁ hd
    split at h
    · cases h
    · rename_i b st₂ hb
      obtain ⟨hp, rfl⟩ := Prod.mk.inj h
      obtain rfl := Preparation.pending.inj hp
      exact ⟨drift, st₁, rfl, hd, hb⟩

/-- There is a ruleset to load if the cluster drifted and a ruleset could be built of it, and then
the policies that were left out have been logged. -/
theorem begin_pending {c : Controller σ α} {now : Instant} {fetched : Except Error ClusterState}
    {s s' : ControllerState σ α} {p : Pending} (h : c.begin now fetched s = (.pending p, s')) :
    ∃ cluster drift st st', fetched = .ok cluster ∧ p.reason = drift.text ∧
      detect c.resolver cluster.policies s.store s.resolver = (some drift, st) ∧
        build c.resolver cluster.policies cluster.services cluster.firewall st =
          (.ok p.build, st') ∧ s' = c.log (p.rejections now) { s with resolver := st' } := by
  unfold begin at h
  split at h
  · cases h
  · rename_i cluster
    split at h
    · cases h
    · rename_i p' st' hplan
      obtain ⟨hp, rfl⟩ := Prod.mk.inj h
      obtain rfl := Preparation.pending.inj hp
      obtain ⟨drift, st, hreason, hd, hb⟩ := plan_pending hplan
      exact ⟨cluster, drift, st, st', rfl, hreason, hd, hb, rfl⟩

/-! ## The steps after the answer -/

theorem outcome_conclude (c : Controller σ α) (now : Instant) (p : Pending)
    (answer : Except Error ApplyOutcome) (s : ControllerState σ α) :
    (c.conclude now p answer s).1 = p.outcome answer := by
  cases answer <;> rfl

theorem persist_frame (c : Controller σ α) (now : Instant) (s : ControllerState σ α) :
    (c.persist now s).store = s.store ∧ (c.persist now s).resolver = s.resolver ∧
      (c.persist now s).applier = s.applier := by
  unfold persist
  split
  · exact ⟨rfl, rfl, rfl⟩
  · split <;> exact ⟨rfl, rfl, rfl⟩

theorem conclude_error (c : Controller σ α) (now : Instant) (p : Pending) (e : Error)
    (s : ControllerState σ α) :
    (c.conclude now p (.error e) s).1 = .failed e ∧
      (c.conclude now p (.error e) s).2.store = s.store :=
  ⟨rfl, rfl⟩

theorem conclude_ok (c : Controller σ α) (now : Instant) (p : Pending) (o : ApplyOutcome)
    (s : ControllerState σ α) :
    (c.conclude now p (.ok o) s).1.isSuccess ∧
      (c.conclude now p (.ok o) s).2.store = p.recordIn s.store ∧
        (c.conclude now p (.ok o) s).2.resolver = s.resolver := by
  obtain ⟨hstore, hresolver, -⟩ :=
    c.persist_frame now { c.log [p.event now (.ok o)] s with store := p.recordIn s.store }
  refine ⟨?_, hstore, hresolver⟩
  cases o <;> rfl

/-! ## The whole -/

/-- Every reconciliation takes one of the five courses. -/
theorem reconcile_course (c : Controller σ α) (now : Instant)
    (fetched : Except Error ClusterState) (s : ControllerState σ α) :
    c.Course fetched s (c.begin now fetched s).1 (c.reconcile now fetched s).1
      (c.reconcile now fetched s).2 := by
  cases fetched with
  | error e => exact .unfetched rfl
  | ok cluster =>
    rcases hd : detect c.resolver cluster.policies s.store s.resolver with ⟨drift?, st⟩
    cases drift? with
    | none =>
      have hbegin : c.begin now (.ok cluster) s =
          (.settled .upToDate, { s with resolver := st }) := by
        simp only [begin, plan, hd]
      rw [reconcile, hbegin]
      exact .upToDate rfl hd
    | some drift =>
      rcases hb : build c.resolver cluster.policies cluster.services cluster.firewall st
        with ⟨result, st'⟩
      cases result with
      | error v =>
        have hbegin : c.begin now (.ok cluster) s =
            (.settled (.failed (.validation v)), { s with resolver := st' }) := by
          simp only [begin, plan, hd, hb]
        rw [reconcile, hbegin]
        exact .unbuilt rfl hd hb
      | ok b =>
        let p : Pending := ⟨drift.text, b⟩
        let s₁ := c.log (p.rejections now) { s with resolver := st' }
        have hbegin : c.begin now (.ok cluster) s = (.pending p, s₁) := by
          simp only [begin, plan, hd, hb, p, s₁]
        -- From here on only the applier's answer decides.
        rcases happly : c.applier p.text (s₁.disk, s₁.applier) with ⟨answer, disk, a⟩
        have hrec : c.reconcile now (.ok cluster) s =
            c.conclude now p (answer.getD (.error (.applyTimeout c.deadline)))
              { s₁ with disk := disk, applier := a } := by
          simp only [reconcile, hbegin, happly]
        rw [hrec, hbegin]
        cases answer.getD (.error (.applyTimeout c.deadline)) with
        | error e => exact .refused rfl hd hb (c.conclude_error now p e _).2
        | ok o =>
          obtain ⟨hsuccess, hstore, hresolver⟩ :=
            c.conclude_ok now p o { s₁ with disk := disk, applier := a }
          refine .accepted rfl hd hb hsuccess ?_ hresolver
          rw [hstore, Pending.recordIn]
          exact List.foldl_append.symm

/-- A success is a success of the ruleset that was handed over: it was built after drift was found,
and its policies were recorded. -/
theorem pending_of_isSuccess (c : Controller σ α) {now : Instant} {cluster : ClusterState}
    {s : ControllerState σ α} (hsuccess : (c.reconcile now (.ok cluster) s).1.isSuccess) :
    ∃ p drift st, (c.begin now (.ok cluster) s).1 = .pending p ∧
      detect c.resolver cluster.policies s.store s.resolver = (some drift, st) ∧
      build c.resolver cluster.policies cluster.services cluster.firewall st =
          (.ok p.build, (c.reconcile now (.ok cluster) s).2.resolver) ∧
        (c.reconcile now (.ok cluster) s).2.store =
          s.store.recordAll (p.build.applied ++ p.build.skipped) := by
  have hcourse := c.reconcile_course now (.ok cluster) s
  generalize (c.begin now (.ok cluster) s).1 = prep at hcourse ⊢
  generalize c.reconcile now (.ok cluster) s = result at hcourse hsuccess ⊢
  obtain ⟨outcome, s'⟩ := result
  cases hcourse with
  | unfetched => cases hsuccess
  | upToDate => cases hsuccess
  | unbuilt => cases hsuccess
  | refused => cases hsuccess
  | accepted hf hd hb _ hstore hresolver =>
    obtain rfl := Except.ok.inj hf
    subst hresolver
    exact ⟨_, _, _, rfl, hd, hb, hstore⟩

theorem accepted_of_isSuccess (c : Controller σ α) {now : Instant} {cluster : ClusterState}
    {s : ControllerState σ α} (hsuccess : (c.reconcile now (.ok cluster) s).1.isSuccess) :
    ∃ drift b st, detect c.resolver cluster.policies s.store s.resolver = (some drift, st) ∧
      build c.resolver cluster.policies cluster.services cluster.firewall st =
          (.ok b, (c.reconcile now (.ok cluster) s).2.resolver) ∧
        (c.reconcile now (.ok cluster) s).2.store = s.store.recordAll (b.applied ++ b.skipped) := by
  obtain ⟨p, drift, st, -, hd, hb, hstore⟩ := c.pending_of_isSuccess hsuccess
  exact ⟨drift, p.build, st, hd, hb, hstore⟩

end Controller

end ClusterFirewall
