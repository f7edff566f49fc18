import SchedulerPolicy.Proofs.Agreement
import SchedulerPolicy.Proofs.Keyed
import SchedulerPolicy.Proofs.Merge.Chain

/-!
# Fragments of one precedence

Before fragments of one precedence are built, their jobs are collected by name, and a name under
which the first job differs from a later one is refused. As agreement of jobs is an equivalence,
that is the case exactly when some two of the jobs differ; and as a canonical fragment names every
job once, exactly when some two of the fragments define a job of one name differently
(`Fragment.Conflict`). Peers without a conflict are built like any chain
(`Fragment.buildPeers_eq_ok_iff`).
-/

namespace SchedulerPolicy

namespace Fragment

namespace JobSection

/-- The jobs that a fragment defines in a section. -/
def jobs (s : JobSection) (f : Fragment) : List Job := ((s.jobs? f).map (·.items)).getD []

theorem flatMap_jobs (s : JobSection) (peers : List Fragment) :
    (peers.filterMap s.jobs?).flatMap (·.items) = peers.flatMap s.jobs := by
  induction peers with
  | nil => rfl
  | cons f peers ih =>
    rw [List.flatMap_cons, ← ih, jobs]
    cases hf : s.jobs? f with
    | none => rw [List.filterMap_cons_none hf]; rfl
    | some set => rw [List.filterMap_cons_some hf, List.flatMap_cons]; rfl

/-- Definitions of one name differ when some two of them do. -/
theorem differ_eq_false_iff {jobs : List Job} :
    differ jobs = false ↔ jobs.Pairwise fun a b => (a == b) = true := by
  cases jobs with
  | nil => exact ⟨fun _ => .nil, fun _ => rfl⟩
  | cons first others =>
    have hfirst : differ (first :: others) = false ↔ ∀ job ∈ others, (job == first) = true := by
      rw [differ, List.any_eq_false]
      refine forall_congr' fun job => imp_congr_right fun _ => ?_
      rw [Bool.not_eq_true, Bool.not_eq_false']
    rw [hfirst, List.pairwise_cons]
    constructor
    · intro h
      -- what agrees with the first job agrees among itself
      refine ⟨fun job hjob => BEq.symm (h job hjob), ?_⟩
      exact List.pairwise_of_forall_mem_list fun a ha b hb =>
        BEq.trans (h a ha) (BEq.symm (h b hb))
    · intro h job hjob
      exact BEq.symm (h.1 job hjob)

theorem get?_definitions (s : JobSection) (peers : List Fragment) (name : String) :
    (s.definitions peers).get? name =
      if (peers.flatMap s.jobs).any (·.name == name) then
        some ((peers.flatMap s.jobs).filter (·.name == name))
      else none := by
  unfold definitions
  rw [flatMap_jobs, Keyed.get?_foldl_collect, Keyed.get?_empty, Option.getD_none, List.nil_append]

/-- Jobs of one name agree. -/
def SameName (a b : Job) : Prop := a.name = b.name → (a == b) = true

theorem pairwise_filter_name_iff {jobs : List Job} :
    (∀ name, (jobs.filter (·.name == name)).Pairwise fun a b => (a == b) = true) ↔
      jobs.Pairwise SameName := by
  simp only [List.pairwise_filter]
  constructor
  · intro h
    refine List.pairwise_of_forall_sublist fun {a b} hab hname => ?_
    -- two jobs of one name are both kept under it
    have hpair := List.pairwise_iff_forall_sublist.1 (h a.name) hab
    exact hpair (beq_self_eq_true _) (by rw [hname, beq_self_eq_true])
  · -- jobs that are kept under a name have this name in common
    intro h name
    refine h.imp fun {a b} hab ha hb => hab ?_
    rw [beq_iff_eq.1 ha, beq_iff_eq.1 hb]

/-- A section has no collision when jobs of one name agree throughout. -/
theorem collision?_eq_none_iff {s : JobSection} {peers : List Fragment} :
    s.collision? peers = none ↔ (peers.flatMap s.jobs).Pairwise SameName := by
  rw [← pairwise_filter_name_iff, collision?, Option.map_eq_none_iff, List.find?_eq_none]
  constructor
  · intro h name
    by_cases hany : (peers.flatMap s.jobs).any (·.name == name) = true
    · have hget := s.get?_definitions peers name
      rw [if_pos hany, Keyed.get?_eq_some_iff] at hget
      exact differ_eq_false_iff.1 (Bool.not_eq_true _ ▸ h _ hget)
    · -- no job has the name
      have hnil : (peers.flatMap s.jobs).filter (·.name == name) = [] := by
        refine List.filter_eq_nil_iff.2 fun job hjob hname => hany ?_
        exact List.any_eq_true.2 ⟨job, hjob, hname⟩
      rw [hnil]
      exact .nil
  · rintro h ⟨name, jobs⟩ hmem
    have hget := Keyed.get?_eq_some_iff.2 hmem
    rw [get?_definitions] at hget
    split at hget
    · rw [← Option.some.inj hget, Bool.not_eq_true]
      exact differ_eq_false_iff.2 (h name)
    · cases hget

end JobSection

/-! ### Conflicts -/

/-- Two fragments define a job of one name with different content in one section. -/
def Conflict (f g : Fragment) : Prop :=
  ∃ s : JobSection, ∃ a ∈ s.jobs f, ∃ b ∈ s.jobs g, a.name = b.name ∧ (a == b) = false

theorem not_conflict_iff {f g : Fragment} :
    ¬f.Conflict g ↔ ∀ s : JobSection, ∀ a ∈ s.jobs f, ∀ b ∈ s.jobs g, JobSection.SameName a b := by
  constructor
  · intro h s a ha b hb hname
    cases hab : a == b with
    | true => rfl
    | false => exact absurd ⟨s, a, ha, b, hb, hname, hab⟩ h
  · rintro h ⟨s, a, ha, b, hb, hname, hab⟩
    rw [h s a ha b hb hname] at hab
    cases hab

/-- A canonical fragment names every job of a section once. -/
theorem Canonical.pairwise_jobs {f : Fragment} (h : f.Canonical) (s : JobSection) :
    (s.jobs f).Pairwise JobSection.SameName := by
  unfold JobSection.jobs
  cases hf : s.jobs? f with
  | none => exact .nil
  | some set =>
    have hnames : (set.items.map Job.name).Nodup := h.jobs s set hf
    exact (List.pairwise_map.1 hnames).imp fun hne hname => absurd hname hne

/-- Peers have no collision in any section when no two of them are in conflict. -/
theorem collision?_eq_none_iff_of_canonical {peers : List Fragment}
    (h : ∀ f ∈ peers, f.Canonical) :
    (∀ s : JobSection, s.collision? peers = none) ↔ peers.Pairwise fun f g => ¬f.Conflict g := by
  -- two jobs come from one peer, which is canonical, or from two peers
  simp only [JobSection.collision?_eq_none_iff, List.pairwise_flatMap, not_conflict_iff]
  constructor
  · intro hall
    refine List.pairwise_of_forall_sublist fun hfg s => ?_
    exact List.pairwise_iff_forall_sublist.1 (hall s).2 hfg
  · intro hpairs s
    exact ⟨fun f hf => (h f hf).pairwise_jobs s, hpairs.imp fun hfg => hfg s⟩

/-- **When canonical peers are built, and what they build.** -/
theorem buildPeers_eq_ok_iff {peers : List Fragment} (h : ∀ f ∈ peers, f.Canonical) {r : Fragment} :
    buildPeers peers = .ok r ↔ peers.Pairwise (fun f g => ¬f.Conflict g) ∧ r = stack peers := by
  rw [← collision?_eq_none_iff_of_canonical h, buildPeers]
  have hsections : JobSection.all.findSome? (·.collision? peers) = none ↔
      ∀ s : JobSection, s.collision? peers = none := by
    rw [List.findSome?_eq_none_iff]
    exact ⟨fun hall s => hall s (by cases s <;> decide), fun hall s _ => hall s⟩
  rw [← hsections]
  cases JobSection.all.findSome? (·.collision? peers) with
  | some e =>
    -- neither side holds
    constructor
    · intro herror
      cases herror
    · rintro ⟨hnone, -⟩
      cases hnone
  | none =>
    change build peers = .ok r ↔ _
    rw [build_of_canonical h, Except.ok.injEq, eq_comm]
    exact ⟨fun hr => ⟨rfl, hr⟩, fun hr => hr.2⟩

end Fragment

end SchedulerPolicy
