import SchedulerPolicy.Proofs.Documents.Table
import SchedulerPolicy.Proofs.Merge.Pool

/-!
# Grouping by label

Queries and welcome messages stand in the documents in groups: a group has a label and lists the
repositories that have it. `grouped` builds the groups, one repository after the other, and `named`
reads back which labels a repository has.

What is read back is not what was put in. The labels of a repository come back in the order of the
groups, each of them once. Still, the groups built from what was read back are the groups it was
read from (`grouped_restored`): a repository finds the labels that it shares with earlier ones
wherever it mentions them, and those that it brings in follow each other as before.

Groups are determined by their labels and, label by label, their repositories
(`eq_of_labels_of_members`), so the two are followed separately.
-/

namespace SchedulerPolicy

variable {κ : Type} [DecidableEq κ]

/-- Adds a repository to the group of each label, and groups for new labels. -/
def addLabels (groups : List (κ × List String)) (k : String) (ls : List κ) :
    List (κ × List String) :=
  poolAll groups (ls.map fun x => (x, [k]))

/-- The labels of a repository, in the order of the groups. -/
def named (k : String) (groups : List (κ × List String)) : List κ :=
  labels (groups.filter (·.2.contains k))

/-- The repositories of a label. -/
def members (groups : List (κ × List String)) (x : κ) : List String := (groups.lookup x).getD []

variable {groups : List (κ × List String)} {k : String} {ls : List κ}

/-! ### Labels and members -/

theorem members_cons_of_eq {g : κ × List String} {x : κ} (h : g.1 = x) :
    members (g :: groups) x = g.2 := by
  unfold members
  rw [List.lookup_cons, beq_iff_eq.2 h.symm, Option.getD_some]

theorem members_cons_of_ne {g : κ × List String} {x : κ} (h : g.1 ≠ x) :
    members (g :: groups) x = members groups x := by
  unfold members
  rw [List.lookup_cons, beq_false_of_ne h.symm]

theorem members_of_not_mem {x : κ} (h : x ∉ labels groups) : members groups x = [] := by
  induction groups with
  | nil => rfl
  | cons g groups ih =>
    have hne : g.1 ≠ x := fun heq => h (heq ▸ List.mem_cons_self)
    rw [members_cons_of_ne hne, ih fun hmem => h (List.mem_cons_of_mem _ hmem)]

/-- Groups with the same labels and the same repositories for each are the same. -/
theorem eq_of_labels_of_members {gs hs : List (κ × List String)} (hnodup : (labels gs).Nodup)
    (hlabels : labels gs = labels hs) (hmembers : ∀ x, members gs x = members hs x) : gs = hs := by
  induction gs generalizing hs with
  | nil => exact (List.map_eq_nil_iff.1 hlabels.symm).symm
  | cons g gs ih =>
    cases hs with
    | nil => cases hlabels
    | cons h hs =>
      obtain ⟨hhead, htail⟩ := List.cons.inj hlabels
      obtain ⟨hg, hgs⟩ := List.nodup_cons.1 hnodup
      have hsnd : g.2 = h.2 := by
        have hx := hmembers g.1
        rwa [members_cons_of_eq rfl, members_cons_of_eq hhead.symm] at hx
      -- the label of the first group is in neither rest, so the rests agree on it too
      have hrest : ∀ x, members gs x = members hs x := by
        intro x
        by_cases hx : g.1 = x
        · have hgs' : x ∉ labels gs := hx ▸ hg
          have hhs' : x ∉ labels hs := by
            change labels gs = labels hs at htail
            rwa [← htail]
          rw [members_of_not_mem hgs', members_of_not_mem hhs']
        · have hx' := hmembers x
          have hne : h.1 ≠ x := fun heq => hx (hhead.trans heq)
          rwa [members_cons_of_ne hx, members_cons_of_ne hne] at hx'
      rw [Prod.ext hhead hsnd, ih hgs htail hrest]

/-- The labels of a repository are those of the groups that list it. -/
theorem named_eq_filter (hnodup : (labels groups).Nodup) (k : String) :
    named k groups = (labels groups).filter fun x => (members groups x).contains k := by
  induction groups with
  | nil => rfl
  | cons g groups ih =>
    obtain ⟨hg, hgroups⟩ := List.nodup_cons.1 hnodup
    -- the first group has nothing to do with the labels of the others
    have hcongr : (labels groups).filter (fun x => (members (g :: groups) x).contains k) =
        (labels groups).filter fun x => (members groups x).contains k := by
      refine List.filter_congr fun x hx => ?_
      have hne : g.1 ≠ x := by
        rintro rfl
        exact hg hx
      rw [members_cons_of_ne hne]
    change named k (g :: groups) =
      (g.1 :: labels groups).filter fun x => (members (g :: groups) x).contains k
    rw [List.filter_cons, hcongr, ← ih hgroups, members_cons_of_eq rfl]
    unfold named
    rw [List.filter_cons]
    cases g.2.contains k <;> rfl

theorem members_of_mem (hnodup : (labels groups).Nodup) {g : κ × List String} (hg : g ∈ groups) :
    members groups g.1 = g.2 := by
  induction groups with
  | nil => cases hg
  | cons h groups ih =>
    obtain ⟨hfirst, hrest⟩ := List.nodup_cons.1 hnodup
    rcases List.mem_cons.1 hg with rfl | hg
    · exact members_cons_of_eq rfl
    · -- the label of a later group is not that of the first
      have hne : h.1 ≠ g.1 := fun heq => hfirst (List.mem_map.2 ⟨g, hg, heq.symm⟩)
      rw [members_cons_of_ne hne, ih hrest hg]

theorem mem_named_iff (hnodup : (labels groups).Nodup) {x : κ} :
    x ∈ named k groups ↔ k ∈ members groups x := by
  rw [named_eq_filter hnodup, List.mem_filter, List.contains_iff_mem]
  refine and_iff_right_of_imp fun hmem => Classical.not_not.1 fun hx => ?_
  -- a label without a group has no members
  rw [members_of_not_mem hx] at hmem
  cases hmem

theorem nodup_named (hnodup : (labels groups).Nodup) (k : String) : (named k groups).Nodup := by
  rw [named_eq_filter hnodup]
  exact hnodup.filter _

/-! ### One repository more -/

theorem addLabels_nil (groups : List (κ × List String)) (k : String) :
    addLabels groups k [] = groups := rfl

theorem addLabels_cons (groups : List (κ × List String)) (k : String) (x : κ) (ls : List κ) :
    addLabels groups k (x :: ls) = addLabels (pool groups (x, [k])) k ls := rfl

theorem labels_addLabels (groups : List (κ × List String)) (k : String) (ls : List κ) :
    labels (addLabels groups k ls) = appendNew id (labels groups) ls := by
  unfold addLabels
  rw [labels_poolAll]
  congr 1
  unfold labels
  rw [List.map_map]
  exact List.map_id ls

theorem members_pool (groups : List (κ × List String)) (k : String) (x y : κ) :
    members (pool groups (y, [k])) x =
      if x = y then addNew id (members groups x) k else members groups x := by
  -- the first group is the one of the label, or the one that is asked for, or neither
  induction groups with
  | nil =>
    by_cases h : x = y
    · rw [if_pos h]
      exact members_cons_of_eq (g := (y, [k])) h.symm
    · rw [if_neg h]
      exact members_cons_of_ne (g := (y, [k])) (Ne.symm h)
  | cons g groups ih =>
    by_cases hg : g.1 = y
    · rw [pool_cons_of_eq (by exact hg)]
      by_cases h : x = y
      · have hx : g.1 = x := hg.trans h.symm
        have hx' : (g.1, appendMissing g.2 [k]).1 = x := hx
        rw [if_pos h, members_cons_of_eq hx', members_cons_of_eq hx, appendMissing_eq_appendNew]
        rfl
      · have hx : g.1 ≠ x := fun hx => h (hx.symm.trans hg)
        have hx' : (g.1, appendMissing g.2 [k]).1 ≠ x := hx
        rw [if_neg h, members_cons_of_ne hx', members_cons_of_ne hx]
    · rw [pool_cons_of_ne (by exact hg)]
      by_cases hx : g.1 = x
      · have h : x ≠ y := fun h => hg (hx.trans h)
        rw [if_neg h, members_cons_of_eq hx, members_cons_of_eq hx]
      · rw [members_cons_of_ne hx, members_cons_of_ne hx, ih]

/-- A repository is added to the groups of its labels, and to no other. -/
theorem members_addLabels (groups : List (κ × List String)) (k : String) (ls : List κ) (x : κ) :
    members (addLabels groups k ls) x =
      if x ∈ ls then addNew id (members groups x) k else members groups x := by
  induction ls generalizing groups with
  | nil => rw [if_neg List.not_mem_nil, addLabels_nil]
  | cons y ls ih =>
    rw [addLabels_cons, ih, members_pool]
    by_cases hxy : x = y
    · -- a label that is mentioned again finds the repository there
      have hagain : addNew id (addNew id (members groups x) k) k = addNew id (members groups x) k :=
        addNew_of_mem (by rw [List.map_id]; exact mem_addNew.2 (Or.inr rfl))
      rw [if_pos hxy, hagain, ite_self, if_pos (List.mem_cons.2 (Or.inl hxy))]
    · rw [if_neg hxy]
      simp only [List.mem_cons, hxy, false_or]

theorem nodup_labels_addLabels (h : (labels groups).Nodup) (k : String) (ls : List κ) :
    (labels (addLabels groups k ls)).Nodup := nodup_labels_poolAll h

/-- What a repository adds does not change the labels of another. -/
theorem named_addLabels_of_ne (h : (labels groups).Nodup) {k k' : String} (hne : k' ≠ k)
    (ls : List κ) : named k' (addLabels groups k ls) = named k' groups := by
  have hmembers : ∀ x, (members (addLabels groups k ls) x).contains k' =
      (members groups x).contains k' := by
    intro x
    rw [members_addLabels]
    split
    · rw [Bool.eq_iff_iff, List.contains_iff_mem, List.contains_iff_mem, mem_addNew]
      exact or_iff_left hne
    · rfl
  rw [named_eq_filter (nodup_labels_addLabels h k ls), named_eq_filter h, labels_addLabels,
    appendNew_eq, List.filter_append]
  simp only [hmembers]
  -- a new label has no repository but the newcomer
  have hnew : (newItems id (labels groups) ls).filter (fun x => (members groups x).contains k') =
      [] := by
    refine List.filter_eq_nil_iff.2 fun x hx => ?_
    rw [members_of_not_mem (mem_newItems.1 hx).2]
    exact Bool.false_ne_true
  rw [hnew, List.append_nil]

/-- A repository that no group lists. -/
def Fresh (k : String) (groups : List (κ × List String)) : Prop := ∀ x, k ∉ members groups x

theorem Fresh.addLabels {k k' : String} (h : Fresh k' groups) (hne : k' ≠ k) (ls : List κ) :
    Fresh k' (addLabels groups k ls) := by
  intro x hx
  rw [members_addLabels] at hx
  split at hx
  · exact (mem_addNew.1 hx).elim (h x) hne
  · exact h x hx

/-- **The labels read back do what the labels did.** -/
theorem addLabels_named (h : (labels groups).Nodup) (hfresh : Fresh k groups) (ls : List κ) :
    addLabels groups k (named k (addLabels groups k ls)) = addLabels groups k ls := by
  have hnodup := nodup_labels_addLabels h k ls
  have hmem : ∀ x, (members (addLabels groups k ls) x).contains k = true ↔ x ∈ ls := by
    intro x
    rw [List.contains_iff_mem, members_addLabels]
    split
    · next hx => exact iff_of_true (mem_addNew.2 (Or.inr rfl)) hx
    · next hx => exact iff_of_false (hfresh x) hx
  -- the labels that were shared, then those that were brought in
  have hnamed : named k (addLabels groups k ls) =
      ((labels groups).filter fun x => (members (addLabels groups k ls) x).contains k) ++
        newItems id (labels groups) ls := by
    rw [named_eq_filter hnodup, labels_addLabels, appendNew_eq, List.filter_append]
    congr 1
    exact List.filter_eq_self.2 fun x hx => (hmem x).2 (mem_newItems.1 hx).1
  refine eq_of_labels_of_members (nodup_labels_addLabels h k _) ?_ fun x => ?_
  · -- the shared labels add no group, and the others add theirs in the same order
    have hshared : ∀ x ∈ (labels groups).filter fun x =>
        (members (addLabels groups k ls) x).contains k, id x ∈ (labels groups).map id := by
      intro x hx
      rw [List.map_id]
      exact (List.mem_filter.1 hx).1
    rw [labels_addLabels, labels_addLabels, hnamed, appendNew_append,
      appendNew_of_keys_subset hshared, appendNew_eq (labels groups) ls]
    rw [labels_addLabels, appendNew_eq] at hnodup
    exact appendNew_of_nodup (by rwa [List.map_id])
  · -- the same labels are mentioned, and how often does not count
    have hiff : x ∈ named k (addLabels groups k ls) ↔ x ∈ ls := by
      rw [named_eq_filter hnodup, List.mem_filter, hmem, labels_addLabels, mem_appendNew]
      exact and_iff_right_of_imp Or.inr
    rw [members_addLabels, members_addLabels]
    simp only [hiff]

/-! ### All repositories -/

section Items

variable {α : Type} {key : α → String} {label : α → List κ} {xs : List α}

/-- The groups of a list of items, each of them a repository with labels. -/
def grouped (key : α → String) (label : α → List κ) (xs : List α)
    (groups : List (κ × List String)) : List (κ × List String) :=
  xs.foldl (fun groups x => addLabels groups (key x) (label x)) groups

theorem grouped_eq_poolAll (key : α → String) (label : α → List κ) (xs : List α)
    (groups : List (κ × List String)) :
    grouped key label xs groups =
      poolAll groups (xs.flatMap fun x => (label x).map fun l => (l, [key x])) := by
  unfold grouped poolAll
  rw [List.foldl_flatMap]
  rfl

/-- Labels stand in the order in which the items first bring them. -/
theorem labels_grouped (key : α → String) (label : α → List κ) (xs : List α)
    (groups : List (κ × List String)) :
    labels (grouped key label xs groups) = appendNew id (labels groups) (xs.flatMap label) := by
  induction xs generalizing groups with
  | nil => rfl
  | cons x xs ih =>
    rw [List.flatMap_cons, appendNew_append, ← labels_addLabels groups (key x)]
    exact ih _

/-- The members of a label are the items that have it, in their order. -/
theorem members_grouped (key : α → String) (label : α → List κ) (xs : List α)
    (groups : List (κ × List String)) (x : κ) :
    members (grouped key label xs groups) x =
      appendNew id (members groups x) ((xs.filter (x ∈ label ·)).map key) := by
  induction xs generalizing groups with
  | nil => rfl
  | cons y xs ih =>
    have hrest := ih (addLabels groups (key y) (label y))
    rw [members_addLabels] at hrest
    refine hrest.trans ?_
    rw [List.filter_cons]
    by_cases hx : x ∈ label y
    · rw [if_pos hx, if_pos (decide_eq_true hx), List.map_cons, appendNew_cons]
    · rw [if_neg hx, if_neg (by rwa [decide_eq_true_eq])]

/-- Later repositories do not change the labels of an earlier one. -/
theorem named_grouped (h : (labels groups).Nodup) (hk : ∀ x ∈ xs, k ≠ key x) :
    named k (grouped key label xs groups) = named k groups := by
  induction xs generalizing groups with
  | nil => rfl
  | cons x xs ih =>
    rw [List.forall_mem_cons] at hk
    change named k (grouped key label xs (addLabels groups (key x) (label x))) = _
    rw [ih (nodup_labels_addLabels h _ _) hk.2, named_addLabels_of_ne h hk.1]

/-- **The groups built from what was read back are the groups that it was read from.** -/
theorem grouped_restored {keep : α → Bool} {back : α → α} (hkeys : (xs.map key).Nodup)
    (hkey : ∀ x ∈ xs, keep x = true → key (back x) = key x)
    (hdropped : ∀ x ∈ xs, keep x = false → label x = [])
    (h : (labels groups).Nodup) (hfresh : ∀ x ∈ xs, Fresh (key x) groups)
    (hkept : ∀ x ∈ xs, keep x = true →
      label (back x) = named (key x) (grouped key label xs groups)) :
    grouped key label (restored keep back xs) groups = grouped key label xs groups := by
  induction xs generalizing groups with
  | nil => rfl
  | cons x xs ih =>
    rw [List.map_cons, List.nodup_cons] at hkeys
    rw [List.forall_mem_cons] at hkey hdropped hfresh hkept
    have hne : ∀ y ∈ xs, key x ≠ key y := fun y hy heq =>
      hkeys.1 (heq ▸ List.mem_map.2 ⟨y, hy, rfl⟩)
    -- the groups once the first repository is through
    have hnodup := nodup_labels_addLabels h (key x) (label x)
    have hfresh' : ∀ y ∈ xs, Fresh (key y) (addLabels groups (key x) (label x)) := fun y hy =>
      (hfresh.2 y hy).addLabels (hne y hy).symm (label x)
    have hrest := ih hkeys.2 hkey.2 hdropped.2 hnodup hfresh' hkept.2
    cases hx : keep x with
    | true =>
      have hlabel : label (back x) = named (key x) (addLabels groups (key x) (label x)) := by
        rw [hkept.1 hx]
        exact named_grouped hnodup hne
      -- the first repository leaves the groups as it did, and the others go on from there
      have hfirst : addLabels groups (key (back x)) (label (back x)) =
          addLabels groups (key x) (label x) := by
        rw [hkey.1 hx, hlabel, addLabels_named h hfresh.1]
      rw [restored_cons_of_pos hx]
      change grouped key label (restored keep back xs)
        (addLabels groups (key (back x)) (label (back x))) = _
      rw [hfirst, hrest]
      rfl
    | false =>
      have hfirst : addLabels groups (key x) (label x) = groups := by
        rw [hdropped.1 hx, addLabels_nil]
      rw [restored_cons_of_neg hx]
      change _ = grouped key label xs (addLabels groups (key x) (label x))
      rw [hfirst] at hrest ⊢
      exact hrest

end Items

end SchedulerPolicy
