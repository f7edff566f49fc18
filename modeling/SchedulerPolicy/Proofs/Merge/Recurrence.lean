import SchedulerPolicy.Proofs.Merge.Meaning

/-!
# Fragments that come up again

A scheduler may be referred to at several levels, and then its fragment stands in a chain more than
once. Only the highest occurrence counts: a lower one may be taken out without a trace
(`build_of_recurrence`).

The crux is a law of two values, `onto (onto a b) a = onto a b`: what `a` held was kept, whatever
`b` brought, so `a` has nothing to add the second time. A value of which this holds is `Recurrent`.
Every value of a field is, except that queries have to search for different things; and as a
fragment is its fields, a canonical fragment is. Associativity then brings two occurrences in a
chain together.
-/

namespace SchedulerPolicy

/-- A value that adds nothing where it was laid before, directly or with another in between. -/
structure Recurrent {α : Type} [Onto α] (a : α) : Prop where
  onto_self : onto a a = a
  onto_onto_self (b : α) : onto (onto a b) a = onto a b

/-! ### Fields -/

theorem Recurrent.option {α : Type} [Onto α] {a : Option α} (h : ∀ x ∈ a, Recurrent x) :
    Recurrent a where
  onto_self := by
    cases a with
    | none => rfl
    | some x => rw [some_onto_some, (h x rfl).onto_self]
  onto_onto_self b := by
    -- the lower value is kept where there is one
    cases a with
    | none => rw [none_onto, onto_none]
    | some x =>
      cases b with
      | none => rw [onto_none, some_onto_some, (h x rfl).onto_self]
      | some y => rw [some_onto_some, some_onto_some, (h x rfl).onto_onto_self]

theorem or_or_self {α : Type} (x y : Option α) : (x.or y).or x = x.or y := by
  cases x <;> cases y <;> rfl

/-- What was appended before adds nothing. -/
theorem appendNew_appendNew_self {α κ : Type} [BEq κ] [LawfulBEq κ] (key : α → κ)
    (own donor : List α) : appendNew key (appendNew key own donor) own = appendNew key own donor :=
  appendNew_of_keys_subset fun _ hx => keys_appendNew.2 (Or.inl (List.mem_map_of_mem hx))

theorem appendNew_self {α κ : Type} [BEq κ] [LawfulBEq κ] (key : α → κ) (own : List α) :
    appendNew key own own = own :=
  appendNew_of_keys_subset fun _ hx => List.mem_map_of_mem hx

theorem ReplaceList.recurrent {α : Type} [BEq α] [LawfulBEq α] (a : ReplaceList α) :
    Recurrent a where
  onto_self := by
    cases ha : a.replace with
    | true => rw [replaceList_onto_of_replace ha]
    | false => rw [replaceList_onto_of_not_replace ha, appendMissing_eq_appendNew, appendNew_self]
  onto_onto_self b := by
    cases ha : a.replace with
    | true => rw [replaceList_onto_of_replace ha, replaceList_onto_of_replace ha]
    | false =>
      rw [replaceList_onto_of_not_replace ha]
      cases hb : b.replace with
      | true => rw [replaceList_onto_of_replace (by exact rfl)]
      | false =>
        -- neither list replaces, so the flag stays down
        rw [replaceList_onto_of_not_replace (by exact rfl), ha]
        simp only [appendMissing_eq_appendNew, appendNew_appendNew_self]

theorem JobSet.recurrent (a : JobSet) : Recurrent a where
  onto_self := by
    cases ha : a.replace with
    | true => rw [onto_of_replace ha]
    | false => rw [onto_of_not_replace ha, appendNew_self]
  onto_onto_self b := by
    cases ha : a.replace with
    | true => rw [onto_of_replace ha, onto_of_replace ha]
    | false =>
      rw [onto_of_not_replace ha]
      cases hb : b.replace with
      | true => rw [onto_of_replace (by exact rfl)]
      | false =>
        rw [onto_of_not_replace (by exact rfl), ha]
        simp only [appendNew_appendNew_self]

theorem Keyed.recurrent {α : Type} (a : Keyed α) : Recurrent a where
  onto_self := by
    refine ext_get? fun key => ?_
    rw [get?_onto, Option.or_self]
  onto_onto_self b := by
    refine ext_get? fun key => ?_
    rw [get?_onto, get?_onto, or_or_self]

/-- Queries that search for different things are found again, with all their repositories. -/
theorem recurrent_queries {qs : List Query} (h : (searches qs).Nodup) : Recurrent qs := by
  rw [searches_eq_labels] at h
  constructor
  case onto_self =>
    apply Query.map_pooled_injective
    rw [map_pooled_onto]
    exact poolAll_of_idle fun q hq => pool_of_mem h hq
  case onto_onto_self =>
    intro donor
    apply Query.map_pooled_injective
    rw [map_pooled_onto, map_pooled_onto, poolAll_poolAll_self h]

/-! ### Fragments -/

namespace Fragment

/-- **A canonical fragment adds nothing the second time**, whatever stands in between. -/
theorem Canonical.onto_onto_self {a : Fragment} (h : a.Canonical) (b : Fragment) :
    SchedulerPolicy.onto (SchedulerPolicy.onto a b) a = SchedulerPolicy.onto a b := by
  refine ext_fields (fun r => ?records) (fun α r s => ?scalars) (fun α r l => ?lists)
    (fun α r m => ?maps) (fun s => ?jobs) ?queries
  case records =>
    rw [r.get?_onto, r.get?_onto, isSome_onto, isSome_onto, Bool.or_right_comm, Bool.or_self]
  case scalars => rw [s.reach_onto, s.reach_onto, or_or_self]
  case lists =>
    have := l.decidableEq
    rw [l.reach_onto, l.reach_onto]
    exact (Recurrent.option fun x _ => x.recurrent).onto_onto_self _
  case maps =>
    rw [m.reach_onto, m.reach_onto]
    exact (Recurrent.option fun x _ => x.recurrent).onto_onto_self _
  case jobs =>
    rw [jobs?_onto, jobs?_onto]
    exact (Recurrent.option fun x _ => x.recurrent).onto_onto_self _
  case queries =>
    rw [queries_onto, queries_onto]
    refine (Recurrent.option fun qs hqs => ?_).onto_onto_self _
    -- the queries that are reached are those of the merge-queue settings
    obtain ⟨rules, hrules, hqueries⟩ := Option.bind_eq_some_iff.1 hqs
    exact recurrent_queries (h.queries rules hrules qs hqueries)

/-! ### Chains -/

/-- An occurrence below another is in the way of nothing. -/
theorem stack_of_recurrence {below between above : List Fragment} {f : Fragment}
    (hbelow : ∀ g ∈ below, g.Canonical) (hbetween : ∀ g ∈ between, g.Canonical)
    (hf : f.Canonical) :
    stack (below ++ f :: (between ++ f :: above)) = stack (below ++ (between ++ f :: above)) := by
  have hupper : stack (between ++ f :: above) =
      onto (stack above) (onto f (stack between)) := by
    rw [stack_append hbetween, stack_cons, hf.onto_assoc]
  have hmiddle : (onto f (stack between)).Canonical := hf.onto (canonical_stack hbetween)
  calc stack (below ++ f :: (between ++ f :: above))
      = onto (onto (stack (between ++ f :: above)) f) (stack below) := by
        rw [stack_append hbelow, stack_cons]
    _ = onto (onto (stack above) (onto (onto f (stack between)) f)) (stack below) := by
        rw [hupper, hmiddle.onto_assoc]
    _ = onto (stack (between ++ f :: above)) (stack below) := by
        rw [hf.onto_onto_self, hupper]
    _ = stack (below ++ (between ++ f :: above)) := (stack_append hbelow _).symm

/-- **A fragment that comes up again counts once.** A chain of canonical fragments is built to the
same fragment when an occurrence of a fragment is taken out that has another above it, whatever
stands between the two, and above and below them. In particular a fragment with itself is built to
itself. -/
theorem build_of_recurrence :
    (∀ chain : List Fragment, (∀ f ∈ chain, f.Canonical) →
      ∃ whole, build chain = .ok whole ∧
        ∀ (below between above : List Fragment) (f : Fragment),
          below ++ f :: (between ++ f :: above) = chain →
          build (below ++ (between ++ f :: above)) = .ok whole) ∧
    ∀ f : Fragment, f.Canonical → build [f, f] = .ok f := by
  have hremove : ∀ (below between above : List Fragment) (f : Fragment),
      (∀ g ∈ below ++ f :: (between ++ f :: above), g.Canonical) →
      build (below ++ (between ++ f :: above)) =
        .ok (stack (below ++ f :: (between ++ f :: above))) := by
    intro below between above f h
    simp only [List.forall_mem_append, List.forall_mem_cons] at h
    obtain ⟨hbelow, hf, hbetween, -, habove⟩ := h
    have hless : ∀ g ∈ below ++ (between ++ f :: above), g.Canonical := by
      simp only [List.forall_mem_append, List.forall_mem_cons]
      exact ⟨hbelow, hbetween, hf, habove⟩
    rw [stack_of_recurrence hbelow hbetween hf, build_of_canonical hless]
  refine ⟨fun chain h => ⟨stack chain, build_of_canonical h, ?_⟩, fun f hf => ?_⟩
  · rintro below between above f rfl
    exact hremove below between above f h
  · -- without the lower occurrence there is one fragment left
    have hpair : ∀ g ∈ [f, f], g.Canonical := by simpa using hf
    have hone : build [f] = .ok (stack [f, f]) := hremove [] [] [] f hpair
    rw [build_of_canonical hpair, ← hone, build_singleton]

/-- The repository refers to the scheduler of the team once more. Its list does not replace, the
group's does, and its query has taken on a repository of the group's. -/
theorem build_of_recurrence_shared :
    let shared : Fragment := {
      presubmits := some { items := [{ name := "lint", optional := some true }] }
      plugins := some { items := ["lgtm", "hold"] }
      merger := some { queries := some [{ repos := ["acme/a"], labels := ["lgtm"] }] } }
    let group : Fragment := {
      presubmits := some { items := [{ name := "test" }, { name := "lint" }] }
      plugins := some { items := ["size"], replace := true }
      merger := some {
        queries := some [{ repos := ["acme/b"] }, { repos := ["acme/c"], labels := ["lgtm"] }] } }
    (∀ f ∈ [shared, group, shared], f.Canonical) ∧
      (∃ whole, build [shared, group, shared] = .ok whole ∧
        build [group, shared] = .ok whole) ∧
      build [shared, shared] = .ok shared := by
  intro shared group
  have hcanonical : ∀ f ∈ [shared, group, shared], f.Canonical := by decide
  obtain ⟨whole, hwhole, hremoved⟩ :=
    build_of_recurrence.1 [shared, group, shared] hcanonical
  exact ⟨hcanonical, ⟨whole, hwhole, hremoved [] [group] [] shared rfl⟩,
    build_of_recurrence.2 shared (by decide)⟩

end Fragment

end SchedulerPolicy
