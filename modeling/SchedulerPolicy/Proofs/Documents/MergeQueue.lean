import SchedulerPolicy.Proofs.Documents.Returned

/-!
# The merge queue

What the documents hold for the merge queue goes to two places when it is recovered: the seven
settings of the queue as a whole to the team, everything else to repositories. So every leaf that
comes back sets the same seven values, those of the documents, and it is no matter which leaf is the
last (`queueSetting_returned`). Of the rest a leaf gets back its own merge method and its own status
checks. Its queries come back in the order in which the documents list them, and without their
repositories, which is enough to list them again in the same order (`grouped_restored`).
-/

namespace SchedulerPolicy

variable {leaves : List Leaf}

/-! ### Settings of one leaf -/

/-- The settings of the queue as a whole. -/
def Keeper.globalRules (k : Keeper) : MergeRules where
  syncPeriod := k.syncPeriod
  statusUpdatePeriod := k.statusUpdatePeriod
  targetUrl := k.targetUrl
  prStatusBaseUrl := k.prStatusBaseUrl
  blockerLabel := k.blockerLabel
  squashLabel := k.squashLabel
  maxGoroutines := k.maxGoroutines

theorem Keeper.globalRules_eq_empty {k : Keeper} (h : k.hasGlobalSettings = false) :
    k.globalRules = {} := by
  unfold hasGlobalSettings at h
  simp only [Bool.or_eq_false_iff, Option.isSome_eq_false_iff, Option.isNone_iff_eq_none] at h
  unfold globalRules
  simp only [h]

section Settings

variable {α : Type} {value : MergeRules → Option α} (hvalue : value {} = none)

include hvalue

theorem bind_teamFragment_merger (d : JobDocument) :
    (Recover.teamFragment d).merger.bind value = value d.keeper.globalRules := by
  unfold Recover.teamFragment
  dsimp only
  -- rules are recovered for the team when a setting is there, and no setting is none
  cases hglobal : d.keeper.hasGlobalSettings with
  | true => rfl
  | false =>
    rw [Keeper.globalRules_eq_empty hglobal, hvalue]
    rfl

/-- Settings that are left out when none is set. -/
theorem bind_unlessEmpty (found : MergeRules) :
    (if found == {} then none else some found).bind value = value found := by
  by_cases hempty : found = {}
  · rw [if_pos (beq_iff_eq.2 hempty), hempty, hvalue, Option.bind_none]
  · rw [if_neg fun hb => hempty (beq_iff_eq.1 hb), Option.bind_some]

theorem bind_mergeRules? (k : Keeper) (key org repo : String) :
    (Recover.mergeRules? k key org repo).bind value =
      let queries := (k.queries.filter (·.repos.contains key)).map Query.search
      value {
        mergeMethod := (k.mergeMethod.get? key).or (k.mergeMethod.get? org)
        contextPolicy := (k.contextOptions.repo? org repo).map (·.toRules)
        queries := nonEmpty queries } :=
  bind_unlessEmpty hvalue _

/-- A setting of a leaf that comes back: that of its repository, or else that of the team. -/
theorem bind_merger_leaf [Onto α]
    (honto : ∀ a b, value (onto a b) = onto (value a) (value b)) (d : Documents) (l : Leaf) :
    (Recover.leaf d l.org l.repo).fragment.merger.bind value =
      onto ((Recover.mergeRules? d.jobs.keeper l.key l.org l.repo).bind value)
        (value d.jobs.keeper.globalRules) := by
  rw [← bind_teamFragment_merger hvalue]
  exact bind_onto none_onto onto_none honto _ _

/-- A setting of the queue as a whole is that of the documents: the repository leaves it open, so
every leaf has it from the team. -/
theorem setting_leaf [Onto α] (honto : ∀ a b, value (onto a b) = onto (value a) (value b))
    (hglobal : ∀ mergeMethod contextPolicy queries,
      value { mergeMethod, contextPolicy, queries } = none) (d : Documents) (l : Leaf) :
    (Recover.leaf d l.org l.repo).fragment.merger.bind value =
      value d.jobs.keeper.globalRules := by
  rw [bind_merger_leaf hvalue honto, bind_mergeRules? hvalue]
  dsimp only
  rw [hglobal, none_onto]

/-- A setting of the queue as a whole stays the same. -/
theorem queueSetting_returned [Onto α]
    (honto : ∀ a b, value (onto a b) = onto (value a) (value b))
    (hglobal : ∀ mergeMethod contextPolicy queries,
      value { mergeMethod, contextPolicy, queries } = none)
    (h : Recoverable leaves) {d : Documents} :
    Compile.queueSetting value (returned d leaves) = value d.jobs.keeper.globalRules :=
  lastSet_of_forall (h.returned_ne_nil d) (forall_mem_restored fun l _ _ =>
    setting_leaf hvalue honto hglobal d l)

end Settings

/-! ### Merge methods and status checks -/

theorem mergeMethods_returned (h : Recoverable leaves) :
    Compile.mergeMethods (returned (documents leaves) leaves) = Compile.mergeMethods leaves := by
  let method (l : Leaf) := l.fragment.merger.bind (·.mergeMethod)
  have hkept : ∀ l ∈ leaves, method (Recover.leaf (documents leaves) l.org l.repo) = method l := by
    intro l hl
    simp only [method]
    rw [bind_merger_leaf rfl fun _ _ => rfl, bind_mergeRules? rfl]
    -- the team has no merge method, and there is none under the organisation
    change onto (((Compile.mergeMethods leaves).get? l.key).or
      ((Compile.mergeMethods leaves).get? l.org)) none = _
    rw [onto_none, get?_mergeMethods h.nodup, get?_mergeMethods h.nodup, itemAt_key h.nodup hl,
      h.itemAt_org hl, Option.bind_some, Option.bind_none, Option.or_none]
  have hs : Survives (documents leaves) method leaves := {
    kept := fun l hl _ => hkept l hl
    dropped := fun l _ hdropped => by
      have hnone := Leaf.appears_of_not_anchored hdropped .mergeMethod
      exact Option.isNone_iff_eq_none.1 (Option.isSome_eq_false_iff.1 hnone) }
  exact hs.map_eq h.nodup get?_mergeMethods

/-- The checks of the document are found again in the rules that they come apart into. -/
theorem RepoContexts.ofRules_toRules (c : RepoContexts) : ofRules c.toRules = c := by
  unfold ofRules toRules
  simp only [itemsOf_listOf]

theorem contextTree_returned (h : Recoverable leaves) :
    (Compile.contextTree (returned (documents leaves) leaves)) = Compile.contextTree leaves := by
  let checks (l : Leaf) := (l.fragment.merger.bind (·.contextPolicy)).map RepoContexts.ofRules
  have hkept : ∀ l ∈ leaves, checks (Recover.leaf (documents leaves) l.org l.repo) = checks l := by
    intro l hl
    simp only [checks]
    rw [bind_merger_leaf rfl fun _ _ => rfl, bind_mergeRules? rfl]
    -- the scheduler of the team has no checks, so there are only those in the tree
    change Option.map _ (onto (((Compile.contextTree leaves).repo? l.org l.repo).map _) none) = _
    rw [onto_none, repo?_contextTree h.nodup]
    change Option.map _ (Option.map _ ((itemAt Leaf.place leaves l.place).bind _)) = _
    rw [itemAt_key (nodup_place h.nodup) hl, Option.bind_some]
    cases l.fragment.merger.bind (·.contextPolicy) with
    | none => rfl
    | some rules => exact congrArg some (RepoContexts.ofRules_toRules (.ofRules rules))
  have hs : Survives (documents leaves) checks leaves := {
    kept := fun l hl _ => hkept l hl
    dropped := fun l _ hdropped => by
      have hnone := Leaf.appears_of_not_anchored hdropped .contextOptions
      simp only [checks]
      rw [Option.isNone_iff_eq_none.1 (Option.isSome_eq_false_iff.1 hnone), Option.map_none] }
  have horgs : (Compile.contextTree (returned (documents leaves) leaves)).orgs =
      (Compile.contextTree leaves).orgs :=
    hs.tree_eq h.nodup populated_contextTree fun hls p => repo?_contextTree hls p.1 p.2
  exact congrArg (fun orgs => ({ orgs } : ContextTree)) horgs

/-! ### Queries -/

/-- The searches of a leaf, wherever they search. -/
def Leaf.searches (l : Leaf) : List Query :=
  ((l.fragment.merger.bind (·.queries)).getD []).map Query.search

/-- The queries of the documents are the searches of the leaves, grouped. -/
theorem map_pooled_queries (leaves : List Leaf) :
    (Compile.keeper leaves).queries.map Query.pooled =
      grouped Leaf.key Leaf.searches leaves [] := by
  -- a leaf adds its own key to each of its searches
  have hleaf : ∀ l : Leaf, l.queries.map Query.pooled = l.searches.map fun q => (q, [l.key]) := by
    intro l
    unfold Leaf.queries Leaf.searches
    rw [List.map_map, List.map_map]
    rfl
  change ((leaves.flatMap Leaf.queries).foldl foldQuery []).map Query.pooled = _
  rw [map_pooled_foldl_foldQuery, grouped_eq_poolAll, List.map_flatMap]
  simp only [hleaf]
  rfl

/-- The searches of the queries that list a key are the labels of the groups that do. -/
theorem map_search_filter (qs : List Query) (key : String) :
    ((qs.filter (·.repos.contains key)).map Query.search).map Query.search =
      named key (qs.map Query.pooled) := by
  unfold named labels
  rw [List.filter_map, List.map_map, List.map_map]
  rfl

/-- The searches of a leaf that comes back are read from the groups. -/
theorem searches_leaf (leaves : List Leaf) (l : Leaf) :
    (Recover.leaf (documents leaves) l.org l.repo).searches =
      named l.key (grouped Leaf.key Leaf.searches leaves []) := by
  rw [← map_pooled_queries]
  unfold Leaf.searches
  rw [bind_merger_leaf rfl fun _ _ => rfl, bind_mergeRules? rfl]
  change ((onto (nonEmpty (((Compile.keeper leaves).queries.filter (·.repos.contains l.key)).map
    Query.search)) none).getD []).map Query.search = _
  rw [onto_none, getD_nonEmpty, map_search_filter]

theorem queries_returned (h : Recoverable leaves) :
    (Compile.keeper (returned (documents leaves) leaves)).queries =
      (Compile.keeper leaves).queries := by
  refine Query.map_pooled_injective ?_
  rw [map_pooled_queries, map_pooled_queries]
  refine grouped_restored h.nodup (fun _ _ _ => rfl) (fun l hl hdropped => ?_) List.nodup_nil
    (fun _ _ _ => List.not_mem_nil) fun l _ _ => searches_leaf leaves l
  unfold Leaf.searches
  rw [(h.unlisted hl hdropped).2.2.2.2, List.map_nil]

/-! ### The whole -/

/-- **The merge queue stays the same.** -/
theorem keeper_returned (h : Recoverable leaves) :
    Compile.keeper (returned (documents leaves) leaves) = Compile.keeper leaves := by
  have hglobal : ∀ {α : Type} [Onto α] {value : MergeRules → Option α}, value {} = none →
      (∀ a b, value (onto a b) = onto (value a) (value b)) →
      (∀ mergeMethod contextPolicy queries, value { mergeMethod, contextPolicy, queries } = none) →
      Compile.queueSetting value (returned (documents leaves) leaves) =
        value (Compile.keeper leaves).globalRules := fun hvalue honto hown =>
    queueSetting_returned hvalue honto hown h
  -- no repository has a setting of its own: those for all of them come back through the team
  unfold Compile.keeper
  congr 1
  · exact queries_returned h
  · exact mergeMethods_returned h
  · exact hglobal rfl (fun _ _ => rfl) fun _ _ _ => rfl
  · exact hglobal rfl (fun _ _ => rfl) fun _ _ _ => rfl
  · exact hglobal rfl (fun _ _ => rfl) fun _ _ _ => rfl
  · exact hglobal rfl (fun _ _ => rfl) fun _ _ _ => rfl
  · exact hglobal rfl (fun _ _ => rfl) fun _ _ _ => rfl
  · exact hglobal rfl (fun _ _ => rfl) fun _ _ _ => rfl
  · exact hglobal rfl (fun _ _ => rfl) fun _ _ _ => rfl
  · exact contextTree_returned h

end SchedulerPolicy
