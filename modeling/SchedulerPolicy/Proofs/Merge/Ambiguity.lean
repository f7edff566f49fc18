import SchedulerPolicy.Proofs.Merge.Meaning

/-!
# When a job is ambiguous

Building a chain fails when a fragment brings a job whose name stands for several jobs of what has
been built so far. What has been built grows from fragment to fragment, so the check is made against
a list that changes under it. It does not matter: jobs are added under new names only, so the names
that stand for several jobs are those that stand for several jobs of the *highest* fragment with the
section, and for as many as there (`JobSet.ambiguity?_addNew`).

That makes the failures of a chain a matter of its fragments alone.

* `JobSection.ambiguitiesBelow` is what a fragment runs into below others, read off the job sets of
  the chain without building anything, and `ambiguities` lists that for a whole chain, in the order
  in which the fragments are gone through.
* `build_eq_outcome` is the statement everything follows from: a chain comes to the first of its
  ambiguities, and without any to its fragments laid over one another.
* `JobSection.Ambiguous` says of one ambiguity that the chain has it, with no order involved.
-/

namespace SchedulerPolicy

/-- One list more at the lower end is in sight unless a list above it replaces. -/
theorem mem_visible_append_singleton {L : Type} {replace : L → Bool} {lists : List L} {l x : L} :
    x ∈ visible replace (lists ++ [l]) ↔
      x ∈ visible replace lists ∨ lists.any replace = false ∧ x = l := by
  cases hany : lists.any replace with
  | true =>
    rw [visible_append_of_any hany]
    exact ⟨Or.inl, fun h => h.resolve_right nofun⟩
  | false =>
    rw [visible_append_of_not_any hany, visible_of_not_any hany, List.mem_append, visible, visible,
      ite_self, List.mem_singleton, eq_self, true_and]

theorem JobSet.mem_ambiguities_iff {path : String} {own donor : JobSet} {e : AmbiguousJob} :
    e ∈ own.ambiguities path donor ↔
      own.replace = false ∧ ∃ job ∈ donor.items, 2 ≤ (own.named job.name).length ∧
        e = { path, name := job.name, count := (own.named job.name).length } := by
  unfold ambiguities
  cases own.replace with
  | true => exact ⟨nofun, nofun⟩
  | false =>
    rw [if_neg Bool.false_ne_true, List.mem_filterMap, eq_self, true_and]
    refine exists_congr fun job => and_congr_right fun _ => ?_
    change (if 2 ≤ (own.named job.name).length then some _ else none) = some e ↔ _
    rw [Option.ite_none_right_eq_some, Option.some.injEq, eq_comm (a := e)]
    rfl

/-- **Merged job sets are as ambiguous as the highest of them**, unless one of them replaces. -/
theorem JobSet.optionAmbiguities_merged (path : String) (top : JobSet) (between : List JobSet)
    (donor : JobSet) :
    optionAmbiguities path (merged (top :: between)) (some donor) =
      if between.any JobSet.replace then [] else top.ambiguities path donor := by
  rw [merged, List.isEmpty_cons, if_neg Bool.false_ne_true, optionAmbiguities]
  unfold ambiguities
  dsimp only
  rw [List.any_cons]
  cases htop : top.replace with
  | true => rw [Bool.true_or, if_pos rfl, if_pos rfl, ite_self]
  | false =>
    cases hany : between.any JobSet.replace with
    | true => rw [Bool.or_true, if_pos rfl, if_pos rfl]
    | false =>
      -- all sets are in sight, and what they add to the highest makes no name ambiguous
      have hnone : (top :: between).any JobSet.replace = false := by
        rw [List.any_cons, htop, hany, Bool.or_false]
      rw [Bool.or_false, if_neg Bool.false_ne_true, if_neg Bool.false_ne_true,
        visible_of_not_any hnone, joined_cons]
      congr 1
      exact funext fun job => ambiguity?_appendNew ..

namespace Fragment

/-! ### The ambiguities of a chain -/

/-- What the jobs of a section run into when a fragment comes below others, given lowest first: the
names that stand for several jobs of the highest set, as long as no set above replaces. -/
def JobSection.ambiguitiesBelow (s : JobSection) (above : List Fragment) (f : Fragment) :
    List AmbiguousJob :=
  match above.reverse.filterMap s.jobs?, s.jobs? f with
  | top :: between, some set =>
    if between.any JobSet.replace then [] else top.ambiguities s.name set
  | _, _ => []

/-- The ambiguities of a chain, lowest fragment first: fragment by fragment from the highest down,
section by section, job by job. -/
def ambiguities : List Fragment → List AmbiguousJob
  | [] => []
  | f :: above => ambiguities above ++ JobSection.all.flatMap fun s => s.ambiguitiesBelow above f

theorem optionAmbiguities_stack (s : JobSection) (above : List Fragment) (f : Fragment) :
    optionAmbiguities s.name (s.jobs? (stack above)) (s.jobs? f) = s.ambiguitiesBelow above f := by
  rw [jobs?_stack]
  unfold JobSection.ambiguitiesBelow
  cases above.reverse.filterMap s.jobs? with
  | nil => rfl
  | cons top between =>
    cases s.jobs? f with
    | none => rfl
    | some set => exact JobSet.optionAmbiguities_merged s.name top between set

/-- **What a chain comes to**: the first of its ambiguities, and without any its fragments laid over
one another. -/
theorem build_eq_outcome (chain : List Fragment) :
    build chain = outcome (ambiguities chain) (stack chain) := by
  induction chain with
  | nil => rfl
  | cons f above ih =>
    -- what is above has been built, so the lowest fragment is laid under `stack above`
    rw [build_cons, ih, ambiguities]
    refine outcome_bind ?_
    rw [fill_eq, stack_cons]
    simp only [optionAmbiguities_stack]

/-! ### Without order -/

/-- A chain has an ambiguity in a section: its highest set does not replace and has several jobs of
one name, and a lower set, not hidden behind one that replaces, has a job of that name too. -/
def JobSection.Ambiguous (s : JobSection) (chain : List Fragment) (e : AmbiguousJob) : Prop :=
  ∃ top lower, chain.reverse.filterMap s.jobs? = top :: lower ∧ top.replace = false ∧
    ∃ set ∈ visible JobSet.replace lower, ∃ job ∈ set.items, 2 ≤ (top.named job.name).length ∧
      e = { path := s.name, name := job.name, count := (top.named job.name).length }

/-- One fragment more at the lower end has its own ambiguities, and hides none. -/
theorem JobSection.ambiguous_cons_iff {s : JobSection} {f : Fragment} {above : List Fragment}
    {e : AmbiguousJob} :
    s.Ambiguous (f :: above) e ↔ s.Ambiguous above e ∨ e ∈ s.ambiguitiesBelow above f := by
  unfold Ambiguous ambiguitiesBelow
  rw [List.reverse_cons, List.filterMap_append]
  cases hf : s.jobs? f with
  | none =>
    rw [List.filterMap_cons_none hf, List.filterMap_nil, List.append_nil]
    cases above.reverse.filterMap s.jobs? <;> exact ⟨Or.inl, fun h => h.resolve_right nofun⟩
  | some set =>
    rw [List.filterMap_cons_some hf, List.filterMap_nil]
    cases above.reverse.filterMap s.jobs? with
    | nil =>
      -- the only set of the chain has nothing below it
      constructor
      · rintro ⟨top, lower, hsets, -, set', hset', -⟩
        obtain ⟨-, rfl⟩ := List.cons.inj hsets
        cases hset'
      · rintro (⟨top, lower, hsets, -⟩ | hmem)
        · cases hsets
        · cases hmem
    | cons top between =>
      constructor
      · rintro ⟨_, _, hsets, htop, set', hset', hjob⟩
        obtain ⟨rfl, rfl⟩ := List.cons.inj hsets
        rcases mem_visible_append_singleton.1 hset' with hin | ⟨hany, rfl⟩
        · exact Or.inl ⟨top, between, rfl, htop, set', hin, hjob⟩
        · dsimp only
          rw [if_neg (by rw [hany]; exact Bool.false_ne_true)]
          exact Or.inr (JobSet.mem_ambiguities_iff.2 ⟨htop, hjob⟩)
      · rintro (⟨_, _, hsets, htop, set', hset', hjob⟩ | hmem)
        · obtain ⟨rfl, rfl⟩ := List.cons.inj hsets
          exact ⟨top, _, rfl, htop, set', mem_visible_append_singleton.2 (Or.inl hset'), hjob⟩
        · -- the set is in sight, or it would have no ambiguities
          dsimp only at hmem
          split at hmem
          · cases hmem
          · next hany =>
            obtain ⟨htop, hjob⟩ := JobSet.mem_ambiguities_iff.1 hmem
            exact ⟨top, _, rfl, htop, set,
              mem_visible_append_singleton.2 (Or.inr ⟨Bool.eq_false_iff.2 hany, rfl⟩), hjob⟩

theorem mem_ambiguities_iff {chain : List Fragment} {e : AmbiguousJob} :
    e ∈ ambiguities chain ↔ ∃ s : JobSection, s.Ambiguous chain e := by
  induction chain with
  | nil =>
    constructor
    · nofun
    · rintro ⟨s, top, lower, hsets, -⟩
      cases hsets
  | cons f above ih =>
    simp only [ambiguities, List.mem_append, ih, List.mem_flatMap, JobSection.ambiguous_cons_iff,
      exists_or]
    -- every section is gone through
    refine or_congr_right ⟨fun ⟨s, _, hs⟩ => ⟨s, hs⟩, fun ⟨s, hs⟩ => ⟨s, ?_, hs⟩⟩
    cases s <;> decide

/-- **When a chain cannot be built, and why.** -/
theorem build_error_iff (chain : List Fragment) :
    ((∃ e, build chain = .error e) ↔ ∃ (s : JobSection) (e : AmbiguousJob), s.Ambiguous chain e) ∧
      (∀ e, build chain = .error e ↔ (ambiguities chain).head? = some e) ∧
      ∀ e, e ∈ ambiguities chain ↔ ∃ s : JobSection, s.Ambiguous chain e := by
  refine ⟨?_, fun e => ?_, fun e => mem_ambiguities_iff⟩
  · rw [build_eq_outcome, exists_outcome_eq_error_iff, exists_comm]
    exact exists_congr fun e => mem_ambiguities_iff
  · rw [build_eq_outcome, outcome_eq_error_iff]

/-- The group comes before the team, and its postsubmits before the team's presubmits. -/
example :
    let team : Fragment := { presubmits := some { items := [{ name := "lint" }] } }
    let group : Fragment := { postsubmits := some { items := [{ name := "push" }] } }
    let own : Fragment := {
      presubmits := some { items := [{ name := "lint" }, { name := "lint" }, { name := "lint" }] }
      postsubmits := some { items := [{ name := "push" }, { name := "push" }] } }
    build [team, group, own] = .error { path := "postsubmits", name := "push", count := 2 } ∧
      build [team, own] = .error { path := "presubmits", name := "lint", count := 3 } :=
  ⟨rfl, rfl⟩

end Fragment

end SchedulerPolicy
