import SchedulerPolicy.Proofs.Merge.Meaning
import SchedulerPolicy.Proofs.Resolution.Generate

/-!
# The injection of the boot repository

The chain of the boot repository ends in the injection. Groups are folded first, but the injection
is not a group, so it is stacked last in any case (`exists_stack_of_foldChain`), and what it says
about a published path holds whatever lies below it. No fragment needs to be canonical for that:
where the leaves are generated at all, the boot repository has one with the injection on top
(`exists_leaf_of_isBoot`).
-/

namespace SchedulerPolicy

/-! ### The top of a chain -/

/-- The link on top of a chain is stacked last when it is not one of the groups. -/
theorem exists_stack_of_foldChain {chain : List ChainLink} {top : ChainLink} {f : Fragment}
    (hgrouped : Grouped (chain ++ [top])) (htop : top.level ≠ .group)
    (h : foldChain (chain ++ [top]) = .ok f) :
    ∃ lower, f = Fragment.stack (lower ++ [top.fragment]) := by
  obtain ⟨below, groups, above, heq, hbelow, hgroups, habove⟩ := hgrouped
  by_cases hne : groups = []
  · -- without groups the chain is built as it is
    have hlevels : ∀ l ∈ chain ++ [top], l.level ≠ .group := by
      rw [heq, hne, List.append_nil]
      exact List.forall_mem_append.2 ⟨hbelow, habove⟩
    rw [foldChain_of_no_group hlevels] at h
    refine ⟨fragments chain, ?_⟩
    rw [Fragment.eq_stack_of_build h]
    unfold fragments
    rw [List.map_append, List.map_singleton]
  · -- a chain that ends in a group would end in a link of its level
    have hlast : some top = above.getLast?.or (groups.getLast?.or below.getLast?) := by
      rw [← List.getLast?_append, ← List.getLast?_append, ← heq, List.getLast?_concat]
    have habove' : above.getLast? = some top := by
      cases hcase : above.getLast? with
      | some l => rwa [hcase, Option.some_or, eq_comm] at hlast
      | none =>
        obtain ⟨g, hg⟩ := Option.isSome_iff_exists.1 (List.getLast?_isSome.2 hne)
        rw [hcase, Option.none_or, hg, Option.some_or] at hlast
        rw [← Option.some.inj hlast] at hg
        exact absurd (hgroups top (List.mem_of_getLast? hg)) htop
    obtain ⟨between, rfl⟩ := List.getLast?_eq_some_iff.1 habove'
    -- the groups come to one fragment, which is stacked below the rest
    rw [heq, foldChain_of_groups hne hbelow hgroups habove, bind_eq_ok_iff] at h
    obtain ⟨peers, -, hbuild⟩ := h
    refine ⟨fragments below ++ [peers] ++ fragments between, ?_⟩
    have habove : fragments (between ++ [top]) = fragments between ++ [top.fragment] := by
      unfold fragments
      rw [List.map_append, List.map_singleton]
    rw [Fragment.eq_stack_of_build hbuild, habove, List.append_assoc (_ ++ _)]

/-- The value under a key of a map is that of the fragment on top, if it has one. -/
theorem Fragment.MapField.value?_stack {α : Type} {r : Record} (m : MapField r α)
    (lower : List Fragment) {top : Fragment} {key : String} {v : α}
    (h : m.value? key top = some v) :
    m.value? key (Fragment.stack (lower ++ [top])) = some v := by
  have hempty : m.value? key ∅ = none := by cases m <;> rfl
  rw [get_stack_eq_findSome? hempty (m.value?_onto key), List.reverse_append,
    List.reverse_singleton, List.singleton_append, List.findSome?_cons, h]

/-! ### The boot repository -/

/-- The two paths of the bootstrap. When they are the same the plugin document is published
there. -/
theorem Bootstrap.get?_published (b : Bootstrap) (path : String) :
    b.published.get? path =
      if path = b.pluginsPath then
        some { name := b.pluginsMap, namespaceName := b.namespaceName }
      else if path = b.configPath then
        some { name := b.configMap, namespaceName := b.namespaceName }
      else none := by
  unfold Bootstrap.published
  rw [Keyed.get?_ofList]
  -- the entry that came last is looked up first
  change List.lookup path [(b.pluginsPath, _), (b.configPath, _)] = _
  rw [List.lookup_cons, List.lookup_cons, List.lookup_nil]
  by_cases hplugins : path = b.pluginsPath
  · rw [if_pos hplugins, beq_iff_eq.2 hplugins]
  · rw [if_neg hplugins, beq_false_of_ne hplugins]
    by_cases hconfig : path = b.configPath
    · rw [if_pos hconfig, beq_iff_eq.2 hconfig]
    · rw [if_neg hconfig, beq_false_of_ne hconfig]

theorem Resolver.chain_of_isBoot {r : Resolver} {s : SourceRepository} (h : r.isBoot s = true) :
    ∃ chain top, r.chain s = chain ++ [top] ∧ top.level = .bootstrap ∧
      top.fragment = r.injection := by
  unfold Resolver.chain
  dsimp only
  rw [if_pos h]
  exact ⟨_, _, rfl, rfl, rfl⟩

theorem Resolver.leaf?_of_isBoot {r : Resolver} {s : SourceRepository} (h : r.isBoot s = true)
    {found : Option Leaf} (hfound : r.leaf? s = .ok found) :
    ∃ own, found = some own ∧ own.org = s.spec.org ∧ own.repo = s.spec.repo ∧
      ∃ lower, own.fragment = Fragment.stack (lower ++ [r.injection]) := by
  obtain ⟨chain, top, hchain, hlevel, hfragment⟩ := Resolver.chain_of_isBoot h
  obtain ⟨hgrouped, -⟩ := r.chain_sorted (P := fun _ => True) (fun _ _ _ => trivial) trivial s
  have htop : top.level ≠ .group := by
    rw [hlevel]
    decide
  unfold Resolver.leaf? at hfound
  rw [hchain] at hgrouped hfound
  -- a chain with a link on top is not empty, so there is a leaf or an error
  split at hfound
  · next hnil => exact absurd hnil (List.append_ne_nil_of_right_ne_nil _ (List.cons_ne_nil _ _))
  · split at hfound
    · next f hfold =>
      obtain ⟨lower, hlower⟩ := exists_stack_of_foldChain hgrouped htop hfold
      rw [hfragment] at hlower
      exact ⟨_, (Except.ok.inj hfound).symm, rfl, rfl, lower, hlower⟩
    · cases hfound

section Generated

variable {repositories : List SourceRepository} {groups : List SourceRepositoryGroup}
  {schedulers : List Scheduler} {environment : Option Environment} {bootstrap : Bootstrap}
  {leaves : List Leaf}

theorem mapM_leaf?_of_generate
    (h : generate repositories groups schedulers environment bootstrap = .ok leaves) :
    ∃ found, repositories.mapM
        (Resolver.ofResources groups schedulers environment bootstrap).leaf? = .ok found ∧
      leaves = (found.filterMap id).mergeSort fun a b => a.key ≤ b.key := by
  unfold generate at h
  split at h
  · cases h
  · obtain ⟨found, hfound, hleaves⟩ := bind_eq_ok_iff.1 h
    exact ⟨found, hfound, (Except.ok.inj hleaves).symm⟩

/-- Where leaves are generated no repository stood in the way, and they are the leaves that the
repositories have. -/
theorem leaf?_of_generate {s : SourceRepository} (hs : s ∈ repositories)
    (h : generate repositories groups schedulers environment bootstrap = .ok leaves) :
    ∃ leaf, (Resolver.ofResources groups schedulers environment bootstrap).leaf? s = .ok leaf ∧
      ∀ own ∈ leaf, own ∈ leaves := by
  obtain ⟨found, hfound, rfl⟩ := mapM_leaf?_of_generate h
  obtain ⟨leaf, hleaf⟩ := exists_mapM_eq_ok_iff.1 ⟨found, hfound⟩ s hs
  refine ⟨leaf, hleaf, fun own hown => ?_⟩
  have hmem : some own ∈ found := (mem_of_mapM_eq_ok hfound).2 ⟨s, hs, hown ▸ hleaf⟩
  rw [(List.mergeSort_perm _ _).mem_iff]
  exact List.mem_filterMap.2 ⟨some own, hmem, rfl⟩

/-- **The boot repository has a leaf with the injection on top**, whatever lies below. -/
theorem exists_leaf_of_isBoot {s : SourceRepository} (hs : s ∈ repositories)
    (hboot : (Resolver.ofResources groups schedulers environment bootstrap).isBoot s = true)
    (h : generate repositories groups schedulers environment bootstrap = .ok leaves) :
    ∃ own ∈ leaves, own.org = s.spec.org ∧ own.repo = s.spec.repo ∧
      ∃ lower, own.fragment = Fragment.stack (lower ++ [bootstrap.fragment]) := by
  obtain ⟨leaf, hleaf, hmem⟩ := leaf?_of_generate hs h
  obtain ⟨own, rfl, horg, hrepo, hfragment⟩ := Resolver.leaf?_of_isBoot hboot hleaf
  exact ⟨own, hmem own rfl, horg, hrepo, hfragment⟩

theorem pairwise_key_of_generate
    (h : generate repositories groups schedulers environment bootstrap = .ok leaves) :
    leaves.Pairwise fun a b => a.key ≤ b.key := by
  obtain ⟨found, -, rfl⟩ := mapM_leaf?_of_generate h
  exact pairwise_sorted _

end Generated

end SchedulerPolicy
