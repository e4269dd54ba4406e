import ClusterFirewall.Proofs.Resolution.Transcript
import ClusterFirewall.Proofs.Ruleset.Contents

/-!
# One generation of answers

A build asks its resolver many times, for valid and for invalid policies, and the resolver may say
something else each time. All the same the build is one of a resolver that never changes:
`buildBy` is the build with known answers, and `build_eq_buildBy` says that every build is that one
for all answers that agree with its pins at the end.

Main statement: `build_eq_of_transcript`, the answers are the first ones in the transcript of the
build, and every policy carries them.
-/

namespace ClusterFirewall

/-- The build with known answers and known sets to declare. -/
def buildBy (answers : SelectorKey → List String) (sets : List IpSet) (policies : List Policy)
    (services : List Service) (firewall : FirewallSpec) : Except Violation Build :=
  match firewall.privateVrf? with
  | none => .error noPrivateNetwork
  | some privateVrf =>
    firewall.snatLines.map (assemble (policies.map fun p => (p.resolveBy answers, p.isValid)) sets
      services firewall privateVrf)

section Policies

variable {answers : SelectorKey → List String} {sets : List IpSet} {policies : List Policy}
  {services : List Service} {firewall : FirewallSpec} {b : Build}

theorem buildBy_eq_ok (hb : buildBy answers sets policies services firewall = .ok b) :
    ∃ vrf snat, firewall.snatLines = .ok snat ∧
      b = assemble (policies.map fun p => (p.resolveBy answers, p.isValid)) sets services firewall
        vrf snat := by
  unfold buildBy at hb
  cases hvrf : firewall.privateVrf? with
  | none => simp [hvrf] at hb
  | some vrf =>
    cases hsnat : firewall.snatLines with
    | error v => simp [hvrf, hsnat, Except.map] at hb
    | ok snat =>
      simp only [hvrf, hsnat, Except.map, Except.ok.injEq] at hb
      exact ⟨vrf, snat, rfl, hb.symm⟩

theorem mem_policies_buildBy (hb : buildBy answers sets policies services firewall = .ok b)
    {q : Policy} : q ∈ b.policies ↔ ∃ p ∈ policies, q = p.resolveBy answers := by
  obtain ⟨vrf, snat, -, rfl⟩ := buildBy_eq_ok hb
  simp only [Build.policies, assemble, List.mem_append, List.mem_map, List.mem_filter]
  constructor
  · rintro (⟨m, ⟨⟨p, hp, rfl⟩, -⟩, rfl⟩ | ⟨m, ⟨⟨p, hp, rfl⟩, -⟩, rfl⟩) <;>
      exact ⟨p, hp, rfl⟩
  · rintro ⟨p, hp, rfl⟩
    -- The mark says to which of the two lists a policy goes.
    cases hv : p.isValid with
    | true => exact .inl ⟨_, ⟨⟨p, hp, rfl⟩, hv⟩, rfl⟩
    | false => exact .inr ⟨_, ⟨⟨p, hp, rfl⟩, by simp [hv]⟩, rfl⟩

theorem mem_applied_buildBy (hb : buildBy answers sets policies services firewall = .ok b)
    {q : Policy} : q ∈ b.applied ↔ ∃ p ∈ policies, p.isValid ∧ q = p.resolveBy answers := by
  obtain ⟨vrf, snat, -, rfl⟩ := buildBy_eq_ok hb
  simp only [assemble, List.mem_map, List.mem_filter]
  constructor
  · rintro ⟨m, ⟨⟨p, hp, rfl⟩, hv⟩, rfl⟩
    exact ⟨p, hp, hv, rfl⟩
  · rintro ⟨p, hp, hv, rfl⟩
    exact ⟨_, ⟨⟨p, hp, rfl⟩, hv⟩, rfl⟩

/-- Where the answers are known, every selector that stands for sets carries the answer of its
key. -/
theorem sets_of_mem_policies (hb : buildBy answers sets policies services firewall = .ok b)
    {q : Policy} (hq : q ∈ b.policies) {s : Selector} (hs : s ∈ q.spec.resolvedSelectors) :
    s.sets = answers s.key := by
  obtain ⟨p, -, rfl⟩ := (mem_policies_buildBy hb).1 hq
  exact PolicySpec.sets_of_resolveBy hs

end Policies

section Builds

variable {σ : Type} {r : Resolver σ} {answers : SelectorKey → List String}
  {policies : List Policy} {services : List Service} {firewall : FirewallSpec} {st : σ}

/-- The pinned view after all policies were resolved. -/
def viewAfter (r : Resolver σ) (policies : List Policy) (st : σ) : σ × Pins :=
  (traverse (resolveMarked r.pinned) policies (st, Pins.none)).2

theorem reaches_viewAfter (r : Resolver σ) (policies : List Policy) (st : σ) :
    r.pinned.Reaches (st, Pins.none) (viewAfter r policies st) :=
  Resolver.reaches_traverse (f := resolveMarked r.pinned)
    (fun p view => Resolver.reaches_resolve r.pinned p view) policies _

/-- A build is the one with known answers, whichever answers agree with what was pinned in its
course. -/
theorem build_eq_buildBy (hpins : (viewAfter r policies st).2.Agree answers) :
    (build r policies services firewall st).1 =
      buildBy answers (r.pinned.rendering (viewAfter r policies st)).1 policies services
        firewall := by
  -- The pins at the end agree, so every policy was resolved by these answers.
  obtain ⟨hmarked, -⟩ := traverse_eq_map_of_end (f := resolveMarked r.pinned)
    (g := fun p => (p.resolveBy answers, p.isValid)) (I := fun view => view.2.Agree answers)
    (fun p view hnext =>
      have hp := Pins.Agree.of_resolve p view hnext
      ⟨congrArg (·, p.isValid) hp.1, hp.2⟩)
    policies (st, Pins.none) hpins
  unfold build buildBy
  cases firewall.privateVrf? with
  | none => rfl
  | some vrf =>
    show firewall.snatLines.map (assemble _ _ services firewall vrf) = _
    rw [hmarked]
    rfl

/-- What holds of every answer and of every list of sets that a resolver gives holds of those that a
build was made with. -/
theorem exists_build_eq_buildBy {P : List String → Prop} {Q : List IpSet → Prop} (hnone : P [])
    (hanswer : ∀ s create st, P (r.answer s create st).1) (hrendering : ∀ st, Q (r.rendering st).1)
    (policies : List Policy) (services : List Service) (firewall : FirewallSpec) (st : σ) :
    ∃ answers sets, (∀ k, P (answers k)) ∧ Q sets ∧
      (build r policies services firewall st).1 =
        buildBy answers sets policies services firewall := by
  have hview := reaches_viewAfter r policies st
  obtain ⟨-, hanswers, -⟩ := Resolver.exists_of_pinned hview
  obtain ⟨-, -, hsets⟩ := Resolver.exists_of_pinned hview.rendering
  obtain ⟨st', -, heq⟩ := hsets _ (r.pins_of_rendering (viewAfter r policies st)).2
  refine ⟨fun k => ((viewAfter r policies st).2.answers.lookup k).getD [], _, fun k => ?_,
    heq ▸ hrendering st', build_eq_buildBy fun k names hk => by rw [hk]; rfl⟩
  show P (((viewAfter r policies st).2.answers.lookup k).getD [])
  cases hk : (viewAfter r policies st).2.answers.lookup k with
  | none => exact hnone
  | some names =>
    obtain ⟨s, st', -, -, rfl⟩ := hanswers k names hk
    exact hanswer s false st'

/-! ## Settled resolvers -/

/-- From this state on, every selector gets the answer of its key, and the same sets are to be
declared. -/
structure Resolver.Settled (r : Resolver σ) (answers : SelectorKey → List String)
    (sets : List IpSet) (st : σ) : Prop where
  steady : r.Steady answers st
  rendering : ∀ st', r.Reaches st st' → (r.rendering st').1 = sets

theorem Resolver.fixed_settled (answers : SelectorKey → List String) (sets : List IpSet) (st : σ) :
    (Resolver.fixed answers sets).Settled answers sets st :=
  ⟨fixed_steady answers sets st, fun _ _ => rfl⟩

/-- A cache that nobody writes to is settled. -/
theorem ResolutionCache.resolver_settled (c : ResolutionCache) :
    resolver.Settled c.known c.declared c := by
  refine ⟨c.resolver_steady, ?_⟩
  intro c' hr
  -- Asking without registering leaves the cache as it is.
  have hsame : c' = c := by
    induction hr with
    | refl => rfl
    | answer s _ ih => rw [ih]; exact congrArg Prod.snd (answer_false s c)
    | rendering _ ih => exact ih
  rw [hsame]
  rfl

theorem Resolver.Settled.pinned_rendering {sets : List IpSet} (h : r.Settled answers sets st)
    {view : σ × Pins} (hv : r.pinned.Reaches (st, Pins.none) view) :
    (r.pinned.rendering view).1 = sets := by
  obtain ⟨hinner, -, hsets⟩ := exists_of_pinned hv
  cases hseen : view.2.sets with
  | some known =>
    -- The sets were asked for before, in another state that the resolver came to.
    obtain ⟨st', hst', heq⟩ := hsets known hseen
    simpa [pinned, hseen, heq] using h.rendering st' hst'
  | none => simpa [pinned, hseen] using h.rendering _ hinner

/-- With a settled resolver the build is the one with its answers and its sets. -/
theorem Resolver.Settled.build_eq {sets : List IpSet} (h : r.Settled answers sets st)
    (policies : List Policy) (services : List Service) (firewall : FirewallSpec) :
    (build r policies services firewall st).1 =
      buildBy answers sets policies services firewall := by
  have hview := reaches_viewAfter r policies st
  rw [build_eq_buildBy (h.steady.pinned_reaches hview).2, h.pinned_rendering hview]

/-! ## The transcript of a build -/

/-- Nobody can tell from a build whether a transcript is kept. -/
theorem build_transcribed (r : Resolver σ) (policies : List Policy) (services : List Service)
    (firewall : FirewallSpec) (st : σ) (t : Transcript) :
    (build r.transcribed policies services firewall (st, t)).1 =
        (build r policies services firewall st).1 ∧
      (build r.transcribed policies services firewall (st, t)).2.1 =
        (build r policies services firewall st).2 := by
  have hpinned := r.transcribed_correspond.pinned
  obtain ⟨hmarked, hview⟩ := traverse_corresponding (f := resolveMarked r.transcribed.pinned)
    (g := resolveMarked r.pinned)
    (fun p view view' h =>
      have hp := hpinned.resolve p view view' h
      ⟨congrArg (·, p.isValid) hp.1, hp.2⟩)
    policies ((st, t), Pins.none) (st, Pins.none) ⟨rfl, rfl⟩
  obtain ⟨hsets, hend⟩ := hpinned.rendering _ _ hview
  unfold build
  cases firewall.privateVrf? with
  | none => exact ⟨rfl, rfl⟩
  | some vrf =>
    simp only [hmarked, hsets]
    exact ⟨trivial, hend.1⟩

/-- What is said in the course of a build. -/
def transcriptOf (r : Resolver σ) (policies : List Policy) (services : List Service)
    (firewall : FirewallSpec) (st : σ) : Transcript :=
  (build r.transcribed policies services firewall (st, .blank)).2.2

/-- The transcript of a build that asked anything: what is pinned at its end, and one list of sets
to declare. -/
theorem transcript_of_build (r : Resolver σ) (policies : List Policy) (services : List Service)
    (st : σ) {vrf : UInt64} (hvrf : firewall.privateVrf? = some vrf) :
    let t := transcriptOf r policies services firewall st
    let view := viewAfter r.transcribed policies (st, .blank)
    (∀ k, view.2.answers.lookup k = t.answers.lookup k) ∧
      t.renderings = [(r.transcribed.pinned.rendering view).1] := by
  intro t view
  have ht : t = (r.transcribed.pinned.rendering view).2.1.2 := by
    simp only [t, transcriptOf, build, hvrf]
    rfl
  have hreaches := (reaches_viewAfter r.transcribed policies (st, Transcript.blank)).rendering
  obtain ⟨hanswers, hrenderings⟩ := Resolver.transcript_of_reaches hreaches
  obtain ⟨hsame, hsets⟩ := r.transcribed.pins_of_rendering view
  rw [ht]
  constructor
  · intro k
    rw [← hsame]
    exact hanswers k
  · rw [← hrenderings, hsets]
    rfl

/-- Whatever is said about keys that nobody asked for, the build is the same. -/
theorem build_eq_buildBy_of_transcript
    (hagree : ∀ k names, (transcriptOf r policies services firewall st).answers.lookup k =
      some names → names = answers k) :
    (build r policies services firewall st).1 =
      buildBy answers ((transcriptOf r policies services firewall st).renderings.headD []) policies
        services firewall := by
  cases hvrf : firewall.privateVrf? with
  | none =>
    -- Nothing can be built, and nobody was asked.
    simp only [build, buildBy, hvrf]
  | some vrf =>
    obtain ⟨hanswers, hrenderings⟩ := transcript_of_build r policies services st hvrf
    have hpins : (viewAfter r.transcribed policies (st, Transcript.blank)).2.Agree answers :=
      fun k names hk => hagree k names ((hanswers k).symm.trans hk)
    rw [← (build_transcribed r policies services firewall st .blank).1, hrenderings]
    exact build_eq_buildBy hpins

/-- Every selector that stands for sets was asked for and carries the first answer of its key. -/
theorem lookup_of_mem_policies {b : Build}
    (hb : (build r policies services firewall st).1 = .ok b) {p : Policy} (hp : p ∈ b.policies)
    {s : Selector} (hs : s ∈ p.spec.resolvedSelectors) :
    (transcriptOf r policies services firewall st).answers.lookup s.key = some s.sets := by
  have hcarried : ∀ answers : SelectorKey → List String,
      (∀ k names, (transcriptOf r policies services firewall st).answers.lookup k = some names →
        names = answers k) → s.sets = answers s.key := fun answers hagree =>
    sets_of_mem_policies ((build_eq_buildBy_of_transcript hagree).symm.trans hb) hp hs
  have hfirst := hcarried _ fun k names => Transcript.first_of_lookup
  cases hk : (transcriptOf r policies services firewall st).answers.lookup s.key with
  | some names => rw [hfirst, Transcript.first_of_lookup hk]
  | none =>
    -- The key would have been answered differently if it had not been asked for.
    have hother := hcarried
      (fun k => ((transcriptOf r policies services firewall st).answers.lookup k).getD ["other"])
      (fun k names hk => by rw [hk]; rfl)
    rw [hfirst, Transcript.first, hk] at hother
    cases hother

theorem length_renderings {b : Build} (hb : (build r policies services firewall st).1 = .ok b) :
    (transcriptOf r policies services firewall st).renderings.length = 1 := by
  cases hvrf : firewall.privateVrf? with
  | none => simp [build, hvrf] at hb
  | some vrf =>
    rw [(transcript_of_build r policies services st hvrf).2]
    rfl

/-- A build sees one generation of answers: it is the build with the resolver that always gives the
first answer in the transcript, and with the sets that were asked for once. Every selector carries
that answer, and the egress rules come from what the policies carry. -/
theorem build_eq_of_transcript (r : Resolver σ) (policies : List Policy)
    (services : List Service) (firewall : FirewallSpec) (st : σ) :
    let run := build r.transcribed policies services firewall (st, .blank)
    let t := run.2.2
    let still : Resolver Unit := .fixed t.first (t.renderings.headD [])
    (run.1, run.2.1) = build r policies services firewall st ∧
      (build r policies services firewall st).1 = (build still policies services firewall ()).1 ∧
      ∀ b, (build r policies services firewall st).1 = .ok b →
        t.renderings.length = 1 ∧
        (∀ p ∈ b.policies, ∀ s ∈ p.spec.resolvedSelectors,
          t.answers.lookup s.key = some s.sets) ∧
        (∀ p ∈ b.policies, ∀ q ∈ b.policies, ∀ s ∈ p.spec.resolvedSelectors,
          ∀ s' ∈ q.spec.resolvedSelectors, s.key = s'.key → s.sets = s'.sets) ∧
        b.ruleset.egress = sortUnique (b.applied.flatMap Policy.egressLines) := by
  intro run t still
  obtain ⟨hrun, hstate⟩ := build_transcribed r policies services firewall st .blank
  have hstill : (build still policies services firewall ()).1 =
      buildBy t.first (t.renderings.headD []) policies services firewall :=
    (Resolver.fixed_settled _ _ ()).build_eq policies services firewall
  have hcarried : ∀ b, (build r policies services firewall st).1 = .ok b → ∀ p ∈ b.policies,
      ∀ s ∈ p.spec.resolvedSelectors, t.answers.lookup s.key = some s.sets :=
    fun b hb p hp s hs => lookup_of_mem_policies hb hp hs
  refine ⟨Prod.ext hrun hstate, ?_, fun b hb => ⟨length_renderings hb, hcarried b hb, ?_, ?_⟩⟩
  · rw [hstill]
    exact build_eq_buildBy_of_transcript fun k names => Transcript.first_of_lookup
  · intro p hp q hq s hs s' hs' hkey
    -- Both carry the first answer of their key, and they have one key.
    have hs := hcarried b hb p hp s hs
    rw [hkey, hcarried b hb q hq s' hs'] at hs
    exact (Option.some.inj hs).symm
  · exact (lines_of_build (Prod.ext hb rfl)).2

/-- A resolver that gives another name each time it is asked, a valid and an invalid policy with one
selector in common. -/
theorem build_eq_of_transcript_of_counting :
    let r : Resolver Nat := ⟨fun _ _ n => (["gen" ++ toString n], n + 1), fun n => ([], n)⟩
    let policies : List Policy :=
      [⟨"default", "foreign", ⟨[], [⟨[], [.ofName "example.com"], [.single .tcp 443]⟩]⟩⟩,
        .named "dns" ⟨[], [⟨[], [.ofName "example.com", .ofPattern "*.org"], [.single .udp 53]⟩]⟩]
    let firewall : FirewallSpec := ⟨[], [⟨"tenant", .privatePrimary, some 42, []⟩], [], []⟩
    let t := (build r.transcribed policies [] firewall (0, .blank)).2.2
    t.answers = [(⟨"example.com", ""⟩, ["gen0"]), (⟨"", "*.org"⟩, ["gen1"])] ∧
      ∃ b, (build r policies [] firewall 0).1 = .ok b ∧ b.skipped.length = 1 ∧
        b.applied.length = 1 ∧ t.renderings.length = 1 ∧
        ∀ p ∈ b.policies, ∀ s ∈ p.spec.resolvedSelectors,
          t.answers.lookup s.key = some s.sets := by
  intro r policies firewall t
  obtain ⟨b, hb⟩ : ∃ b, (build r policies [] firewall 0).1 = .ok b := ⟨_, rfl⟩
  obtain ⟨honce, hcarried, -⟩ := (build_eq_of_transcript r policies [] firewall 0).2.2 b hb
  have hlengths : b.skipped.length = 1 ∧ b.applied.length = 1 := by
    obtain rfl := Except.ok.inj hb
    decide +kernel
  exact ⟨by decide +kernel, b, hb, hlengths.1, hlengths.2, honce, hcarried⟩

end Builds

end ClusterFirewall
