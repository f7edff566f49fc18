import SchedulerPolicy.Proofs.Keyed
import SchedulerPolicy.Proofs.Merge.Onto
import SchedulerPolicy.Proofs.Merge.Pool

/-!
# Laws of laying fragments over one another

The absent value and the empty fragment are neutral. Laying over is associative for every type
except lists of queries (`AssocOnto`), where the middle list has to name every search once
(`queries_onto_assoc`); merge-queue settings and fragments inherit the condition.

A fragment is *canonical* (`Fragment.Canonical`) when its job sections name every job once and its
queries search for different things. Canonical fragments are filled in without fail
(`Fragment.Canonical.fill_eq`), what results is canonical again (`Fragment.Canonical.onto`), and
laying them over one another is associative (`Fragment.Canonical.onto_assoc`).
-/

namespace SchedulerPolicy

/-- A type whose values can be laid over one another in any grouping. -/
class AssocOnto (α : Type) [Onto α] : Prop where
  onto_assoc (a b c : α) : onto (onto a b) c = onto a (onto b c)

export AssocOnto (onto_assoc)

/-! ### Scalars, optional fields, lists and maps -/

instance : AssocOnto String := ⟨fun _ _ _ => rfl⟩

instance : AssocOnto Bool := ⟨fun _ _ _ => rfl⟩

instance : AssocOnto UInt32 := ⟨fun _ _ _ => rfl⟩

/-- For optional values only the values that are present matter. -/
theorem option_onto_assoc {α : Type} [Onto α] {a b c : Option α}
    (h : ∀ x ∈ a, ∀ y ∈ b, ∀ z ∈ c, onto (onto x y) z = onto x (onto y z)) :
    onto (onto a b) c = onto a (onto b c) := by
  -- an absent value drops out, and two values are left to combine
  cases a with
  | none => rw [none_onto, none_onto]
  | some x =>
    cases b with
    | none => rw [onto_none, none_onto]
    | some y =>
      cases c with
      | none => rw [onto_none, onto_none]
      | some z =>
        rw [some_onto_some, some_onto_some, some_onto_some, some_onto_some, h x rfl y rfl z rfl]

/-- What holds of the values present on either side, and of one laid over the other, holds of what
is present in the result. -/
theorem forall_mem_onto {α : Type} [Onto α] {P : α → Prop} {a b : Option α} (ha : ∀ x ∈ a, P x)
    (hb : ∀ y ∈ b, P y) (hab : ∀ x y, P x → P y → P (onto x y)) : ∀ z ∈ onto a b, P z := by
  intro z hz
  cases a with
  | none =>
    rw [none_onto] at hz
    exact hb z hz
  | some x =>
    cases b with
    | none =>
      rw [onto_none] at hz
      exact ha z hz
    | some y =>
      rw [some_onto_some, Option.mem_some_iff] at hz
      exact hz ▸ hab x y (ha x rfl) (hb y rfl)

instance {α : Type} [Onto α] [AssocOnto α] : AssocOnto (Option α) :=
  ⟨fun _ _ _ => option_onto_assoc fun _ _ _ _ _ _ => onto_assoc ..⟩

theorem replaceList_onto_of_replace {α : Type} [BEq α] {own : ReplaceList α}
    (h : own.replace = true) (donor : ReplaceList α) : onto own donor = own := by
  change (if own.replace = true then own else _) = own
  rw [if_pos h]

theorem replaceList_onto_of_not_replace {α : Type} [BEq α] {own : ReplaceList α}
    (h : own.replace = false) (donor : ReplaceList α) :
    onto own donor =
      { items := appendMissing own.items donor.items, replace := donor.replace } := by
  change (if own.replace = true then own else _) = _
  rw [if_neg (by rw [h]; exact Bool.false_ne_true)]

/-- A list that replaces cuts off the same whether or not what lies below was joined before. -/
instance {α : Type} [BEq α] [LawfulBEq α] : AssocOnto (ReplaceList α) where
  onto_assoc a b c := by
    cases ha : a.replace with
    | true =>
      rw [replaceList_onto_of_replace ha, replaceList_onto_of_replace ha,
        replaceList_onto_of_replace ha]
    | false =>
      rw [replaceList_onto_of_not_replace ha b, replaceList_onto_of_not_replace ha]
      cases hb : b.replace with
      | true =>
        -- `a` has taken over the flag of `b` with its items
        rw [replaceList_onto_of_replace (by exact rfl), replaceList_onto_of_replace hb, hb]
      | false =>
        rw [replaceList_onto_of_not_replace (by exact rfl), replaceList_onto_of_not_replace hb]
        simp only [appendMissing_eq_appendNew, appendNew_assoc]

namespace JobSet

theorem onto_of_replace {own : JobSet} (h : own.replace = true) (donor : JobSet) :
    onto own donor = own := by
  change (if own.replace = true then own else _) = own
  rw [if_pos h]

theorem onto_of_not_replace {own : JobSet} (h : own.replace = false) (donor : JobSet) :
    onto own donor =
      { items := appendNew Job.name own.items donor.items, replace := donor.replace } := by
  change (if own.replace = true then own else _) = _
  rw [if_neg (by rw [h]; exact Bool.false_ne_true)]

instance : AssocOnto JobSet where
  onto_assoc a b c := by
    -- as for lists, with jobs appended by name
    cases ha : a.replace with
    | true => rw [onto_of_replace ha, onto_of_replace ha, onto_of_replace ha]
    | false =>
      rw [onto_of_not_replace ha b, onto_of_not_replace ha]
      cases hb : b.replace with
      | true => rw [onto_of_replace (by exact rfl), onto_of_replace hb, hb]
      | false =>
        rw [onto_of_not_replace (by exact rfl), onto_of_not_replace hb, appendNew_assoc]

end JobSet

/-- A key has the own value, and failing that the donor's. -/
theorem Keyed.get?_onto {α : Type} (own donor : Keyed α) (key : String) :
    (onto own donor).get? key = (own.get? key).or (donor.get? key) :=
  Keyed.get?_foldl_insertNew donor.entries own key

instance {α : Type} : AssocOnto (Keyed α) where
  onto_assoc a b c := by
    refine Keyed.ext_get? fun key => ?_
    rw [Keyed.get?_onto, Keyed.get?_onto, Keyed.get?_onto, Keyed.get?_onto, Option.or_assoc]

/-! ### Queries -/

/-- The searches of a list of queries. -/
def searches (qs : List Query) : List Query := qs.map Query.search

theorem searches_eq_labels (qs : List Query) : searches qs = labels (qs.map Query.pooled) := by
  unfold searches labels
  rw [List.map_map]
  rfl

theorem map_pooled_onto (own donor : List Query) :
    (onto own donor).map Query.pooled =
      poolAll (own.map Query.pooled) (donor.map Query.pooled) :=
  map_pooled_foldl_foldQuery own donor

/-- Queries are laid over one another in any grouping when those in the middle search for different
things. -/
theorem queries_onto_assoc {b : List Query} (h : (searches b).Nodup) (a c : List Query) :
    onto (onto a b) c = onto a (onto b c) := by
  -- queries are told apart by their entries, and of these the law is known
  apply Query.map_pooled_injective
  rw [searches_eq_labels] at h
  rw [map_pooled_onto, map_pooled_onto, map_pooled_onto, map_pooled_onto, poolAll_assoc h]

theorem nodup_searches_onto {own : List Query} (h : (searches own).Nodup) (donor : List Query) :
    (searches (onto own donor)).Nodup := by
  rw [searches_eq_labels] at h ⊢
  rw [map_pooled_onto]
  exact nodup_labels_poolAll h

/-! ### Records -/

attribute [ext] Agent StatusChecks PushRestrictions ReviewRules BranchRules Protection TriggerRules
  ApproveRules LgtmRules ContextRules MergeRules PublishedFiles Fragment

instance : AssocOnto Agent where
  onto_assoc _ _ _ := by ext1; exact onto_assoc ..

instance : AssocOnto StatusChecks where
  onto_assoc _ _ _ := by ext1 <;> exact onto_assoc ..

instance : AssocOnto PushRestrictions where
  onto_assoc _ _ _ := by ext1 <;> exact onto_assoc ..

instance : AssocOnto ReviewRules where
  onto_assoc _ _ _ := by ext1 <;> exact onto_assoc ..

instance : AssocOnto BranchRules where
  onto_assoc _ _ _ := by ext1 <;> exact onto_assoc ..

instance : AssocOnto Protection where
  onto_assoc _ _ _ := by ext1 <;> exact onto_assoc ..

instance : AssocOnto TriggerRules where
  onto_assoc _ _ _ := by ext1 <;> exact onto_assoc ..

instance : AssocOnto ApproveRules where
  onto_assoc _ _ _ := by ext1 <;> exact onto_assoc ..

instance : AssocOnto LgtmRules where
  onto_assoc _ _ _ := by ext1 <;> exact onto_assoc ..

instance : AssocOnto ContextRules where
  onto_assoc _ _ _ := by ext1 <;> exact onto_assoc ..

instance : AssocOnto PublishedFiles where
  onto_assoc _ _ _ := by ext1; exact onto_assoc ..

/-- The queries of merge-queue settings search for different things. -/
def MergeRules.DistinctSearches (r : MergeRules) : Prop :=
  ∀ qs ∈ r.queries, (searches qs).Nodup

instance (r : MergeRules) : Decidable r.DistinctSearches :=
  inferInstanceAs (Decidable (∀ qs ∈ r.queries, (searches qs).Nodup))

theorem MergeRules.onto_assoc_of_distinct {b : MergeRules} (h : b.DistinctSearches)
    (a c : MergeRules) : onto (onto a b) c = onto a (onto b c) := by
  -- every other field is laid over in any grouping
  ext1
  case queries => exact option_onto_assoc fun x _ y hy z _ => queries_onto_assoc (h y hy) x z
  all_goals exact onto_assoc ..

theorem MergeRules.DistinctSearches.onto {a b : MergeRules} (ha : a.DistinctSearches)
    (hb : b.DistinctSearches) : (onto a b).DistinctSearches := by
  exact forall_mem_onto ha hb fun _ donor hown _ => nodup_searches_onto hown donor

/-! ### Job sets with distinct names -/

namespace JobSet

/-- Every job has a name of its own. -/
def DistinctNames (s : JobSet) : Prop := s.names.Nodup

instance (s : JobSet) : Decidable s.DistinctNames := inferInstanceAs (Decidable s.names.Nodup)

theorem DistinctNames.onto {a b : JobSet} (h : a.DistinctNames) : (onto a b).DistinctNames := by
  cases hr : a.replace with
  | true => rwa [onto_of_replace hr]
  | false =>
    rw [onto_of_not_replace hr]
    exact nodup_keys_appendNew h

/-- Where names are distinct, a name stands for at most one job. -/
theorem length_filter_name_le_one {jobs : List Job} (h : (jobs.map Job.name).Nodup)
    (name : String) : (jobs.filter (·.name == name)).length ≤ 1 := by
  -- as many jobs have the name as the list of names holds it
  have hcount : (jobs.filter (·.name == name)).length = (jobs.map Job.name).count name := by
    rw [List.count_eq_countP, List.countP_map, List.countP_eq_length_filter]
    rfl
  rw [hcount]
  exact List.nodup_iff_count.1 h name

/-- Where names are distinct no name is ambiguous. -/
theorem DistinctNames.unambiguous {a : JobSet} (h : a.DistinctNames) (b : JobSet) :
    a.Unambiguous b :=
  Or.inr fun job _ => length_filter_name_le_one h job.name

end JobSet

/-! ### Fragments -/

namespace Fragment

/-- Nothing lies under the empty fragment but what is laid there. -/
theorem empty_onto (f : Fragment) : onto ∅ f = f := by
  ext1 <;> exact none_onto _

theorem onto_empty (f : Fragment) : onto f ∅ = f := by
  ext1 <;> exact onto_none _

/-- A fragment whose job sections name every job once and whose queries search for different
things. -/
structure Canonical (f : Fragment) : Prop where
  jobs : ∀ s : JobSection, ∀ set ∈ s.jobs? f, set.DistinctNames
  queries : ∀ rules ∈ f.merger, rules.DistinctSearches

theorem canonical_iff {f : Fragment} :
    f.Canonical ↔
      (∀ s ∈ JobSection.all, ∀ set ∈ s.jobs? f, set.DistinctNames) ∧
        ∀ rules ∈ f.merger, rules.DistinctSearches := by
  constructor
  · intro h
    exact ⟨fun s _ => h.jobs s, h.queries⟩
  · rintro ⟨hjobs, hqueries⟩
    exact ⟨fun s => hjobs s (by cases s <;> decide), hqueries⟩

instance (f : Fragment) : Decidable f.Canonical := decidable_of_iff _ canonical_iff.symm

theorem Canonical.empty : (∅ : Fragment).Canonical where
  jobs := by rintro (_ | _ | _) set hset <;> cases hset
  queries := by intro rules hrules; cases hrules

theorem Canonical.unambiguous {a : Fragment} (h : a.Canonical) (b : Fragment) :
    a.Unambiguous b :=
  fun s set hset donor _ => (h.jobs s set hset).unambiguous donor

theorem Canonical.fill_eq {a : Fragment} (h : a.Canonical) (b : Fragment) :
    fill a b = .ok (onto a b) :=
  fill_eq_ok_iff.2 ⟨h.unambiguous b, rfl⟩

/-- Canonical fragments make a canonical fragment. -/
theorem Canonical.onto {a b : Fragment} (ha : a.Canonical) (hb : b.Canonical) :
    (onto a b).Canonical where
  jobs s := by
    rw [jobs?_onto]
    exact forall_mem_onto (ha.jobs s) (hb.jobs s) fun _ _ hx _ => hx.onto
  queries := forall_mem_onto ha.queries hb.queries fun _ _ hx hy => hx.onto hy

/-- Fragments are laid over one another in any grouping when the one in the middle is canonical. -/
theorem Canonical.onto_assoc {b : Fragment} (h : b.Canonical) (a c : Fragment) :
    SchedulerPolicy.onto (SchedulerPolicy.onto a b) c =
      SchedulerPolicy.onto a (SchedulerPolicy.onto b c) := by
  ext1
  case merger =>
    exact option_onto_assoc fun x _ y hy z _ =>
      MergeRules.onto_assoc_of_distinct (h.queries y hy) x z
  all_goals exact SchedulerPolicy.onto_assoc ..

end Fragment

end SchedulerPolicy
