import SchedulerPolicy.Proofs.Resolution.Peers
import SchedulerPolicy.Resolution.Leaf

/-!
# Folding chains

A chain comes with the links of groups next to each other: every link that a `ChainBuilder` collects
stands in a slot of its level (`ChainBuilder.Sorted`), and announcing a scheduler keeps it so. The
links of the groups come down to one fragment before the chain is built. That takes the place of a
block of the chain, so on canonical fragments the chain is built as if it had not been grouped; all
that grouping adds is that groups in conflict are refused (`foldChain_eq_ok_iff`).
-/

namespace SchedulerPolicy

/-! ### Builders -/

namespace ChainBuilder

/-- Every link of a builder is in the slot of its level, and `P` holds of the fragments of its links
and of its schedulers. -/
structure Sorted (P : Fragment → Prop) (b : ChainBuilder) : Prop where
  schedulers : ∀ name, ∀ f ∈ b.schedulers.get? name, P f
  team : ∀ l ∈ b.team, l.level = .team ∧ P l.fragment
  groups : ∀ l ∈ b.groups, l.level = .group ∧ P l.fragment
  own : ∀ l ∈ b.own, l.level = .repository ∧ P l.fragment
  bootstrap : ∀ l ∈ b.bootstrap, l.level = .bootstrap ∧ P l.fragment

variable {P : Fragment → Prop} {b : ChainBuilder}

theorem Sorted.link? (h : b.Sorted P) (level : Level) (scheduler : String) (group : Option String) :
    ∀ l ∈ b.link? level scheduler group, l.level = level ∧ P l.fragment := by
  intro l hl
  obtain ⟨f, hf, rfl⟩ := Option.map_eq_some_iff.1 hl
  exact ⟨rfl, h.schedulers scheduler f hf⟩

theorem Sorted.withTeam (h : b.Sorted P) (scheduler : Option String) :
    (b.withTeam scheduler).Sorted P := by
  cases scheduler with
  | none => exact h
  | some scheduler => exact { h with team := h.link? .team scheduler none }

theorem Sorted.withRepository (h : b.Sorted P) (scheduler : Option String) :
    (b.withRepository scheduler).Sorted P := by
  cases scheduler with
  | none => exact h
  | some scheduler => exact { h with own := h.link? .repository scheduler none }

theorem Sorted.withGroup (h : b.Sorted P) (group scheduler : String) :
    (b.withGroup group scheduler).Sorted P := by
  unfold ChainBuilder.withGroup
  -- a scheduler that is not found makes no link
  cases hl : b.link? .group scheduler (some group) with
  | none => exact h
  | some link =>
    have hlink := h.link? .group scheduler (some group) link hl
    exact { h with groups := List.forall_mem_cons.2 ⟨hlink, h.groups⟩ }

theorem Sorted.withBootstrap (h : b.Sorted P) {f : Fragment} (hf : P f) :
    (b.withBootstrap f).Sorted P :=
  { h with bootstrap := by rintro l ⟨⟩; exact ⟨rfl, hf⟩ }

theorem Sorted.announceGroup (h : b.Sorted P) (group : SourceRepositoryGroup) :
    (Resolver.announceGroup b group).Sorted P := by
  unfold Resolver.announceGroup
  split
  · exact h.withGroup _ _
  · exact h

theorem Sorted.announceGroups (h : b.Sorted P) (groups : List SourceRepositoryGroup) :
    (groups.foldl Resolver.announceGroup b).Sorted P := by
  induction groups generalizing b with
  | nil => exact h
  | cons group groups ih => exact ih (h.announceGroup group)

end ChainBuilder

/-! ### Chains -/

/-- A chain in which the links of groups stand next to each other. -/
def Grouped (chain : List ChainLink) : Prop :=
  ∃ below groups above : List ChainLink, chain = below ++ groups ++ above ∧
    (∀ l ∈ below, l.level ≠ .group) ∧ (∀ l ∈ groups, l.level = .group) ∧
    ∀ l ∈ above, l.level ≠ .group

theorem ChainBuilder.Sorted.grouped {P : Fragment → Prop} {b : ChainBuilder} (h : b.Sorted P) :
    Grouped b.chain := by
  -- the team lies below the groups, the repository and the injection above
  refine ⟨b.team.toList, b.groups, b.own.toList ++ b.bootstrap.toList, ?_, ?_, ?_, ?_⟩
  · unfold ChainBuilder.chain
    rw [List.append_assoc _ b.own.toList]
  · intro l hl
    rw [(h.team l (Option.mem_toList.1 hl)).1]
    decide
  · intro l hl
    exact (h.groups l hl).1
  · intro l hl
    rcases List.mem_append.1 hl with hl | hl
    · rw [(h.own l (Option.mem_toList.1 hl)).1]
      decide
    · rw [(h.bootstrap l (Option.mem_toList.1 hl)).1]
      decide

theorem ChainBuilder.Sorted.forall_chain {P : Fragment → Prop} {b : ChainBuilder}
    (h : b.Sorted P) : ∀ l ∈ b.chain, P l.fragment := by
  intro l hl
  unfold ChainBuilder.chain at hl
  rw [List.mem_append, List.mem_append, List.mem_append] at hl
  rcases hl with ((hl | hl) | hl) | hl
  · exact (h.team l (Option.mem_toList.1 hl)).2
  · exact (h.groups l hl).2
  · exact (h.own l (Option.mem_toList.1 hl)).2
  · exact (h.bootstrap l (Option.mem_toList.1 hl)).2

/-- The fragments of a chain, lowest precedence first. -/
def fragments (chain : List ChainLink) : List Fragment := chain.map (·.fragment)

/-- Two groups of a chain are in conflict. -/
def GroupConflict (chain : List ChainLink) : Prop :=
  ∃ x y : ChainLink, [x, y].Sublist chain ∧ x.level = .group ∧ y.level = .group ∧
    x.fragment.Conflict y.fragment

theorem not_groupConflict_iff {chain : List ChainLink} :
    ¬GroupConflict chain ↔
      (chain.filter (·.level == .group)).Pairwise fun x y => ¬x.fragment.Conflict y.fragment := by
  rw [List.pairwise_filter, List.pairwise_iff_forall_sublist]
  constructor
  · intro h x y hxy hx hy hconflict
    exact h ⟨x, y, hxy, beq_iff_eq.1 hx, beq_iff_eq.1 hy, hconflict⟩
  · rintro h ⟨x, y, hxy, hx, hy, hconflict⟩
    exact h hxy (beq_iff_eq.2 hx) (beq_iff_eq.2 hy) hconflict

/-! ### Runs of groups -/

section Runs

variable {groups : List Fragment} {l : ChainLink} {chain run below above rest : List ChainLink}

/-- A group joins the run that has begun. -/
theorem foldGroups_cons_of_eq (h : l.level = .group) :
    foldGroups groups (l :: rest) = foldGroups (groups ++ [l.fragment]) rest := by
  rw [foldGroups, if_pos (beq_iff_eq.2 h)]

/-- Any other link ends the run. -/
theorem foldGroups_cons_of_ne (h : l.level ≠ .group) :
    foldGroups groups (l :: rest) =
      foldPeers groups >>= fun peers => (peers ++ l.fragment :: ·) <$> foldGroups [] rest := by
  rw [foldGroups, if_neg fun hb => h (beq_iff_eq.1 hb)]
  rfl

theorem foldGroups_run (h : ∀ l ∈ run, l.level = .group) :
    foldGroups groups (run ++ rest) = foldGroups (groups ++ fragments run) rest := by
  induction run generalizing groups with
  | nil =>
    change foldGroups groups rest = foldGroups (groups ++ []) rest
    rw [List.append_nil]
  | cons l run ih =>
    rw [List.forall_mem_cons] at h
    rw [List.cons_append, foldGroups_cons_of_eq h.1, ih h.2, List.append_assoc]
    rfl

/-- Below the first group the links are taken as they are. -/
theorem foldGroups_below (h : ∀ l ∈ below, l.level ≠ .group) (rest : List ChainLink) :
    foldGroups [] (below ++ rest) = (fragments below ++ ·) <$> foldGroups [] rest := by
  induction below with
  | nil =>
    rw [List.nil_append]
    cases foldGroups [] rest <;> rfl
  | cons l below ih =>
    rw [List.forall_mem_cons] at h
    rw [List.cons_append, foldGroups_cons_of_ne h.1, ih h.2]
    -- no run has begun, so the link ends none
    cases foldGroups [] rest <;> rfl

/-- Above the last group the links are taken as they are. -/
theorem foldGroups_above (h : ∀ l ∈ above, l.level ≠ .group) :
    foldGroups groups above = (· ++ fragments above) <$> foldPeers groups := by
  have hnone : foldGroups [] [] = .ok [] := rfl
  cases above with
  | nil =>
    rw [foldGroups]
    cases foldPeers groups with
    | error e => rfl
    | ok peers => exact congrArg Except.ok (List.append_nil peers).symm
  | cons l above =>
    -- the first link ends the run, and no group comes after it
    rw [List.forall_mem_cons] at h
    have habove := foldGroups_below h.2 []
    rw [List.append_nil, hnone] at habove
    rw [foldGroups_cons_of_ne h.1, habove]
    cases foldPeers groups with
    | error e => rfl
    | ok peers =>
      change Except.ok (peers ++ l.fragment :: (fragments above ++ [])) = _
      rw [List.append_nil]
      rfl

/-- The links below the groups, the groups themselves, and the links above them. -/
theorem foldChain_append (hbelow : ∀ l ∈ below, l.level ≠ .group)
    (hrun : ∀ l ∈ run, l.level = .group) (habove : ∀ l ∈ above, l.level ≠ .group) :
    foldChain (below ++ run ++ above) =
      foldPeers (fragments run) >>= fun peers =>
        Fragment.build (fragments below ++ peers ++ fragments above) := by
  unfold foldChain
  rw [List.append_assoc, foldGroups_below hbelow, foldGroups_run hrun, List.nil_append,
    foldGroups_above habove]
  cases foldPeers (fragments run) with
  | error e => rfl
  | ok peers => exact congrArg Fragment.build (List.append_assoc _ _ _).symm

/-- A chain without groups is built as it is. -/
theorem foldChain_of_no_group (h : ∀ l ∈ chain, l.level ≠ .group) :
    foldChain chain = Fragment.build (fragments chain) := by
  have hfold := foldChain_append h (List.forall_mem_nil _) (List.forall_mem_nil _)
  rw [List.append_nil, List.append_nil] at hfold
  rw [hfold]
  change Fragment.build (fragments chain ++ [] ++ []) = _
  rw [List.append_nil, List.append_nil]

/-- A chain with groups is built from what they come down to. -/
theorem foldChain_of_groups (hne : run ≠ []) (hbelow : ∀ l ∈ below, l.level ≠ .group)
    (hrun : ∀ l ∈ run, l.level = .group) (habove : ∀ l ∈ above, l.level ≠ .group) :
    foldChain (below ++ run ++ above) =
      Fragment.buildPeers (fragments run) >>= fun peers =>
        Fragment.build (fragments below ++ [peers] ++ fragments above) := by
  rw [foldChain_append hbelow hrun habove]
  cases run with
  | nil => exact absurd rfl hne
  | cons g run =>
    change ((fun f => [f]) <$> Fragment.buildPeers (fragments (g :: run))) >>= _ = _
    rw [map_eq_pure_bind, bind_assoc]
    congr 1

end Runs

/-! ### Canonical chains -/

theorem forall_fragments {P : Fragment → Prop} {chain : List ChainLink} :
    (∀ f ∈ fragments chain, P f) ↔ ∀ l ∈ chain, P l.fragment := by
  unfold fragments
  rw [List.forall_mem_map]

/-- Groups that are stacked first take the place of a block of the chain. -/
theorem stack_peers {below groups above : List ChainLink}
    (hbelow : ∀ l ∈ below, l.fragment.Canonical) (hgroups : ∀ l ∈ groups, l.fragment.Canonical) :
    Fragment.stack (fragments below ++ [Fragment.stack (fragments groups)] ++ fragments above) =
      Fragment.stack (fragments (below ++ groups ++ above)) := by
  have hbelow' := forall_fragments.2 hbelow
  calc Fragment.stack (fragments below ++ [Fragment.stack (fragments groups)] ++ fragments above)
      = onto (onto (Fragment.stack (fragments above)) (Fragment.stack (fragments groups)))
          (Fragment.stack (fragments below)) := by
        rw [List.append_assoc, Fragment.stack_append hbelow']
        rfl
    _ = Fragment.stack (fragments below ++ (fragments groups ++ fragments above)) := by
        rw [Fragment.stack_append hbelow', Fragment.stack_append (forall_fragments.2 hgroups)]
    _ = Fragment.stack (fragments (below ++ groups ++ above)) := by
        unfold fragments
        rw [List.append_assoc, List.map_append, List.map_append]

/-- **When a chain of canonical fragments is folded, and what it comes down to.** -/
theorem foldChain_eq_ok_iff {chain : List ChainLink} (hgrouped : Grouped chain)
    (hcanonical : ∀ l ∈ chain, l.fragment.Canonical) {r : Fragment} :
    foldChain chain = .ok r ↔
      ¬GroupConflict chain ∧ r = Fragment.stack (fragments chain) := by
  obtain ⟨below, groups, above, rfl, hbelow, hgroups, habove⟩ := hgrouped
  have hfilter : (below ++ groups ++ above).filter (·.level == .group) = groups := by
    rw [List.filter_append, List.filter_append,
      List.filter_eq_nil_iff.2 fun l hl h => hbelow l hl (beq_iff_eq.1 h),
      List.filter_eq_nil_iff.2 fun l hl h => habove l hl (beq_iff_eq.1 h),
      List.filter_eq_self.2 fun l hl => beq_iff_eq.2 (hgroups l hl), List.nil_append,
      List.append_nil]
  rw [not_groupConflict_iff, hfilter]
  by_cases hne : groups = []
  · -- without groups there is nothing to refuse
    subst hne
    rw [List.append_nil] at hcanonical ⊢
    rw [foldChain_of_no_group (List.forall_mem_append.2 ⟨hbelow, habove⟩),
      Fragment.build_of_canonical (forall_fragments.2 hcanonical), Except.ok.injEq, eq_comm]
    exact ⟨fun hr => ⟨.nil, hr⟩, fun hr => hr.2⟩
  · rw [List.forall_mem_append, List.forall_mem_append] at hcanonical
    obtain ⟨⟨hcbelow, hcgroups⟩, hcabove⟩ := hcanonical
    have hpeers : ∀ f ∈ fragments groups, f.Canonical := forall_fragments.2 hcgroups
    -- what the groups come down to is canonical, so the chain around it is built
    have hwhole : ∀ f ∈ fragments below ++ [Fragment.stack (fragments groups)] ++ fragments above,
        f.Canonical := by
      rw [List.forall_mem_append, List.forall_mem_append, List.forall_mem_singleton]
      exact ⟨⟨forall_fragments.2 hcbelow, Fragment.canonical_stack hpeers⟩,
        forall_fragments.2 hcabove⟩
    have hpairwise : (groups.Pairwise fun x y => ¬x.fragment.Conflict y.fragment) ↔
        (fragments groups).Pairwise fun f g => ¬f.Conflict g := by
      unfold fragments
      rw [List.pairwise_map]
    rw [foldChain_of_groups hne hbelow hgroups habove, bind_eq_ok_iff, hpairwise]
    constructor
    · rintro ⟨peers, hbuilt, hrest⟩
      obtain ⟨hpairs, rfl⟩ := (Fragment.buildPeers_eq_ok_iff hpeers).1 hbuilt
      rw [Fragment.build_of_canonical hwhole, Except.ok.injEq, stack_peers hcbelow hcgroups]
        at hrest
      exact ⟨hpairs, hrest.symm⟩
    · rintro ⟨hpairs, rfl⟩
      refine ⟨_, (Fragment.buildPeers_eq_ok_iff hpeers).2 ⟨hpairs, rfl⟩, ?_⟩
      rw [Fragment.build_of_canonical hwhole, stack_peers hcbelow hcgroups]

end SchedulerPolicy
