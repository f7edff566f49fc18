import SchedulerPolicy.Proofs.Merge.Chain

/-!
# What a chain means

A chain is built from the top down, one fragment after the other, and what has been built so far
decides what the next fragment may still add. What comes out in the end can be said of the chain as
a whole, one field at a time (`Fragment.Meaning`).

* A scalar is the one of the highest fragment that sets it. A record is there as soon as one
  fragment has it.
* A list is read off the *visible* lists: those of the chain from the highest down to the first that
  replaces (`visible`). Its items are the highest list as it is, then what the others have to add
  (`joined`). The same holds of the job sections, where jobs are told apart by name.
* A map holds under each key what the highest fragment holds there.
* Queries share one entry for each search (`Query.Pool`). The entries stand in the order in which
  their searches come up from the top, and an entry lists the repositories of all queries of its
  search, without repetitions and in the same order.

The fields are named by inductive types, a record by the way that leads to it from the fragment
(`RecordField`), everything else by the record that it is a field of. A fragment has no other fields
(`Fragment.ext_fields`), so that the meaning of a chain pins its result down (`build_meaning`).
-/

namespace SchedulerPolicy

/-! ### Visible lists -/

section Visible

variable {L α κ : Type} [BEq κ]

/-- Of lists given highest first, those down to and including the first that replaces. -/
def visible (replace : L → Bool) : List L → List L
  | [] => []
  | l :: lower => if replace l then [l] else l :: visible replace lower

/-- The items of the first list as they are, then those of the others, each unless its key has come
up before. -/
def joined (key : α → κ) (items : L → List α) : List L → List α
  | [] => []
  | top :: lower => items top ++ newItems key (items top) (lower.flatMap items)

variable {replace : L → Bool}

/-- Below a list that replaces nothing is visible. -/
theorem visible_append_of_any {lists : List L} (h : lists.any replace = true) (lower : List L) :
    visible replace (lists ++ lower) = visible replace lists := by
  induction lists with
  | nil => cases h
  | cons l lists ih =>
    rw [List.cons_append, visible, visible]
    cases hl : replace l with
    | true => rw [if_pos rfl, if_pos rfl]
    | false =>
      -- the list that replaces comes later
      rw [List.any_cons, hl, Bool.false_or] at h
      rw [if_neg Bool.false_ne_true, if_neg Bool.false_ne_true, ih h]

/-- Without a list that replaces, everything is visible. -/
theorem visible_append_of_not_any {lists : List L} (h : lists.any replace = false)
    (lower : List L) : visible replace (lists ++ lower) = lists ++ visible replace lower := by
  induction lists with
  | nil => rfl
  | cons l lists ih =>
    rw [List.any_cons, Bool.or_eq_false_iff] at h
    rw [List.cons_append, visible, h.1, if_neg Bool.false_ne_true, ih h.2, List.cons_append]

theorem visible_of_not_any {lists : List L} (h : lists.any replace = false) :
    visible replace lists = lists := by
  have happ := visible_append_of_not_any h []
  rwa [visible, List.append_nil] at happ

variable [LawfulBEq κ] {key : α → κ} {items : L → List α}

theorem joined_cons (top : L) (lower : List L) :
    joined key items (top :: lower) = appendNew key (items top) (lower.flatMap items) := by
  rw [joined, appendNew_eq]

theorem find?_joined (lists : List L) (k : κ) :
    (joined key items lists).find? (key · == k) =
      lists.findSome? fun l => (items l).find? (key · == k) := by
  cases lists with
  | nil => rfl
  | cons top lower =>
    rw [joined_cons, find?_appendNew, List.find?_flatMap, List.findSome?_cons]
    cases (items top).find? (key · == k) <;> rfl

theorem joined_visible_singleton (l : L) :
    joined key items (visible replace [l]) = items l := by
  rw [visible, visible, ite_self, joined_cons, List.flatMap_nil, appendNew_nil]

/-- One list more at the lower end is one list more to append, unless it is out of sight. -/
theorem joined_visible_append_singleton {lists : List L} (hne : lists ≠ []) (l : L) :
    joined key items (visible replace (lists ++ [l])) =
      if lists.any replace then joined key items (visible replace lists)
      else appendNew key (joined key items (visible replace lists)) (items l) := by
  cases hany : lists.any replace with
  | true => rw [visible_append_of_any hany, if_pos rfl]
  | false =>
    -- everything is in sight, so the list is appended to all that was joined
    rw [if_neg Bool.false_ne_true, visible_append_of_not_any hany, visible_of_not_any hany, visible,
      visible, ite_self]
    cases lists with
    | nil => exact absurd rfl hne
    | cons top lower =>
      rw [List.cons_append, joined_cons, joined_cons, List.flatMap_append, List.flatMap_singleton,
        appendNew_append]

end Visible

/-- The list that the lists of a chain, highest first, come down to. -/
def ReplaceList.merged {α : Type} [DecidableEq α] (lists : List (ReplaceList α)) :
    Option (ReplaceList α) :=
  if lists.isEmpty then none
  else some {
    items := joined id ReplaceList.items (visible ReplaceList.replace lists)
    replace := lists.any ReplaceList.replace }

/-- The job set that the job sets of a chain, highest first, come down to. -/
def JobSet.merged (sets : List JobSet) : Option JobSet :=
  if sets.isEmpty then none
  else some {
    items := joined Job.name JobSet.items (visible JobSet.replace sets)
    replace := sets.any JobSet.replace }

/-- A list below the others is what they are laid over. -/
theorem ReplaceList.merged_append_singleton {α : Type} [DecidableEq α]
    (lists : List (ReplaceList α)) (l : ReplaceList α) :
    merged (lists ++ [l]) = onto (merged lists) (some l) := by
  by_cases hne : lists = []
  · -- a list on its own is taken as it is
    subst hne
    rw [List.nil_append, merged, merged, if_neg (by simp), if_pos (by simp), none_onto,
      joined_visible_singleton, List.any_cons, List.any_nil, Bool.or_false]
  · rw [merged, merged, if_neg (by simp), if_neg (by simpa using hne), some_onto_some,
      joined_visible_append_singleton hne, List.any_append, List.any_cons, List.any_nil,
      Bool.or_false]
    congr 1
    -- the merged list replaces when one of its parts does, and then stays as it is
    cases hany : lists.any ReplaceList.replace with
    | true => rw [if_pos rfl, Bool.true_or, replaceList_onto_of_replace (by exact rfl)]
    | false =>
      rw [if_neg Bool.false_ne_true, Bool.false_or, replaceList_onto_of_not_replace (by exact rfl),
        appendMissing_eq_appendNew]

theorem JobSet.merged_append_singleton (sets : List JobSet) (s : JobSet) :
    merged (sets ++ [s]) = onto (merged sets) (some s) := by
  by_cases hne : sets = []
  · subst hne
    rw [List.nil_append, merged, merged, if_neg (by simp), if_pos (by simp), none_onto,
      joined_visible_singleton, List.any_cons, List.any_nil, Bool.or_false]
  · rw [merged, merged, if_neg (by simp), if_neg (by simpa using hne), some_onto_some,
      joined_visible_append_singleton hne, List.any_append, List.any_cons, List.any_nil,
      Bool.or_false]
    congr 1
    cases hany : sets.any JobSet.replace with
    | true => rw [if_pos rfl, Bool.true_or, JobSet.onto_of_replace (by exact rfl)]
    | false =>
      rw [if_neg Bool.false_ne_true, Bool.false_or, JobSet.onto_of_not_replace (by exact rfl)]

/-! ### Pooled queries -/

/-- What queries come to when lower queries are pooled into them. -/
structure Query.Pool (top lower pool : List Query) : Prop where
  /-- The searches of the top stay where they are. New ones follow, each once, in the order in which
  they first come up. -/
  searches : pool.map search =
    top.map search ++ newItems id (top.map search) (lower.map search)
  /-- Where a search comes up first, the repositories of all its queries are listed: those of the
  first query as they are, then those of the others, each unless it has come up before. -/
  repos (before : List Query) (q : Query) (after : List Query) (hpool : pool = before ++ q :: after)
    (hfirst : q.search ∉ before.map search) :
    q.repos = joined id Query.repos
      ((top.find? (·.sameSearch q)).toList ++ lower.filter (·.sameSearch q))
  /-- A search comes up again only where it does in the top, and that query is left alone. -/
  again (before : List Query) (q : Query) (after : List Query) (hpool : pool = before ++ q :: after)
    (hagain : q.search ∈ before.map search) : top[before.length]? = some q

/-- What the lists of queries in a chain, highest first, come down to: nothing without lists, and
else the highest of them with the queries of the others pooled into it. -/
def PooledQueries (lists : List (List Query)) : Option (List Query) → Prop
  | none => lists = []
  | some pool => ∃ top lower, lists = top :: lower ∧ Query.Pool top lower.flatten pool

namespace Query

variable {top lower pool pool' : List Query}

theorem labels_map_pooled (qs : List Query) :
    SchedulerPolicy.labels (qs.map pooled) = qs.map search := List.map_map

theorem lookup_map_pooled (qs : List Query) (x : Query) :
    (qs.map pooled).lookup x = (qs.find? (·.search == x)).map repos := by
  induction qs with
  | nil => rfl
  | cons q qs ih =>
    rw [List.map_cons, List.lookup_cons, List.find?_cons, ih, BEq.comm]
    change (match q.search == x with | true => some q.repos | false => _) = _
    cases q.search == x <;> rfl

/-- **Queries that are folded in one by one are pooled.** -/
theorem pool_foldl (top lower : List Query) : Pool top lower (lower.foldl foldQuery top) := by
  have hpooled := map_pooled_foldl_foldQuery top lower
  generalize lower.foldl foldQuery top = pool at hpooled ⊢
  refine { searches := ?searches, repos := ?repos, again := ?again }
  case searches =>
    rw [← labels_map_pooled pool, hpooled, labels_poolAll, appendNew_eq, labels_map_pooled,
      labels_map_pooled]
  case repos =>
    intro before q after hpool hfirst
    -- the first query of a search is the one that is looked up
    have hfind : pool.find? (·.search == q.search) = some q := by
      refine List.find?_eq_some_iff_append.2 ⟨beq_self_eq_true _, before, after, hpool, ?_⟩
      intro p hp
      rw [Bool.not_eq_true', beq_eq_false_iff_ne]
      exact fun heq => hfirst (heq ▸ List.mem_map_of_mem hp)
    have hlookup := lookup_map_pooled pool q.search
    have hsources : ((top.map pooled).lookup q.search).toList ++
        ((lower.map pooled).filter (·.1 == q.search)).map (·.2) =
          ((top.find? (·.sameSearch q)).toList ++ lower.filter (·.sameSearch q)).map repos := by
      rw [lookup_map_pooled, List.filter_map, List.map_map, List.map_append]
      congr 1
      change _ = (top.find? (·.search == q.search)).toList.map repos
      cases top.find? (·.search == q.search) <;> rfl
    rw [hfind, hpooled, lookup_poolAll, hsources] at hlookup
    cases hq : (top.find? (·.sameSearch q)).toList ++ lower.filter (·.sameSearch q) with
    | nil =>
      rw [hq] at hlookup
      cases hlookup
    | cons first others =>
      rw [hq] at hlookup
      rw [joined_cons, List.flatMap_def]
      exact (Option.some.inj hlookup).symm
  case again =>
    intro before q after hpool hagain
    have hget : (pool.map pooled)[before.length]? = some q.pooled := by
      rw [hpool, List.getElem?_map, List.getElem?_append_right (Nat.le_refl _), Nat.sub_self]
      rfl
    have hmem : q.pooled.1 ∈ SchedulerPolicy.labels ((pool.map pooled).take before.length) := by
      rw [← List.map_take, labels_map_pooled, hpool, List.take_left]
      exact hagain
    rw [hpooled] at hget hmem
    obtain ⟨htop, -⟩ := getElem?_of_poolAll hget hmem
    rw [List.getElem?_map] at htop
    obtain ⟨q', hq', heq⟩ := Option.map_eq_some_iff.1 htop
    rw [hq', pooled_injective heq]

/-- Queries are pooled in one way only. -/
theorem Pool.unique (h : Pool top lower pool) (h' : Pool top lower pool') : pool = pool' := by
  have hsearches : pool.map search = pool'.map search := h.searches.trans h'.searches.symm
  have hlength : pool.length = pool'.length := by
    rw [← List.length_map search, hsearches, List.length_map]
  refine List.ext_getElem hlength fun i hi hi' => ?_
  have hsplit : pool = pool.take i ++ pool[i] :: pool.drop (i + 1) := by
    rw [List.getElem_cons_drop, List.take_append_drop]
  have hsplit' : pool' = pool'.take i ++ pool'[i] :: pool'.drop (i + 1) := by
    rw [List.getElem_cons_drop, List.take_append_drop]
  have hsearch : pool[i].search = pool'[i].search := by
    have hget : (pool.map search)[i]? = (pool'.map search)[i]? := by rw [hsearches]
    rw [List.getElem?_map, List.getElem?_map, List.getElem?_eq_getElem hi,
      List.getElem?_eq_getElem hi'] at hget
    exact Option.some.inj hget
  have hbefore : (pool.take i).map search = (pool'.take i).map search := by
    rw [List.map_take, List.map_take, hsearches]
  by_cases hagain : pool[i].search ∈ (pool.take i).map search
  · -- both have the query that stands there in the top
    have htop := h.again _ _ _ hsplit hagain
    have htop' := h'.again _ _ _ hsplit' (hsearch ▸ hbefore ▸ hagain)
    rw [List.length_take_of_le (Nat.le_of_lt hi)] at htop
    rw [List.length_take_of_le (Nat.le_of_lt hi'), htop] at htop'
    exact Option.some.inj htop'
  · have hrepos := h.repos _ _ _ hsplit hagain
    have hrepos' := h'.repos _ _ _ hsplit' (hsearch ▸ hbefore ▸ hagain)
    -- the repositories depend on the search alone
    refine pooled_injective (Prod.ext hsearch ?_)
    change pool[i].repos = pool'[i].repos
    rw [hrepos, hrepos']
    unfold sameSearch
    rw [hsearch]

end Query

theorem PooledQueries.unique {lists : List (List Query)} {x y : Option (List Query)}
    (hx : PooledQueries lists x) (hy : PooledQueries lists y) : x = y := by
  cases x with
  | none =>
    cases y with
    | none => rfl
    | some pool =>
      obtain ⟨top, lower, hlists, -⟩ := hy
      cases hx.symm.trans hlists
  | some pool =>
    obtain ⟨top, lower, rfl, hpool⟩ := hx
    cases y with
    | none => cases hy
    | some pool' =>
      obtain ⟨top', lower', hlists, hpool'⟩ := hy
      obtain ⟨rfl, rfl⟩ := List.cons.inj hlists
      rw [hpool.unique hpool']

/-- The highest list of queries with those of the others folded in. -/
def mergedQueries : List (List Query) → Option (List Query)
  | [] => none
  | top :: lower => some (lower.flatten.foldl foldQuery top)

theorem pooledQueries_merged (lists : List (List Query)) :
    PooledQueries lists (mergedQueries lists) := by
  cases lists with
  | nil => rfl
  | cons top lower => exact ⟨top, lower, rfl, Query.pool_foldl top lower.flatten⟩

theorem mergedQueries_append_singleton (lists : List (List Query)) (qs : List Query) :
    mergedQueries (lists ++ [qs]) = onto (mergedQueries lists) (some qs) := by
  cases lists with
  | nil => rfl
  | cons top lower =>
    rw [List.cons_append, mergedQueries, mergedQueries, List.flatten_append, List.foldl_append,
      List.flatten_singleton]
    rfl

/-! ### The fields of a fragment -/

namespace Fragment

/-- The records in a fragment, the fragment itself among them. -/
inductive Record where
  | fragment
  | agent
  | protection
  | rules
  | checks
  | restrictions
  | reviews
  | trigger
  | approve
  | lgtm
  | merger
  | contextPolicy
  | files
deriving DecidableEq

/-- The type of a record. -/
@[reducible] def Record.Carrier : Record → Type
  | .fragment => Fragment
  | .agent => Agent
  | .protection => Protection
  | .rules => BranchRules
  | .checks => StatusChecks
  | .restrictions => PushRestrictions
  | .reviews => ReviewRules
  | .trigger => TriggerRules
  | .approve => ApproveRules
  | .lgtm => LgtmRules
  | .merger => MergeRules
  | .contextPolicy => ContextRules
  | .files => PublishedFiles

/-- A scalar in a record. -/
inductive ScalarField : Record → Type → Type where
  | agent : ScalarField .agent String
  | protectTested : ScalarField .protection Bool
  | protect : ScalarField .rules Bool
  | admins : ScalarField .rules Bool
  | strict : ScalarField .checks Bool
  | dismissStaleReviews : ScalarField .reviews Bool
  | requireCodeOwnerReviews : ScalarField .reviews Bool
  | requiredApprovingReviewCount : ScalarField .reviews UInt32
  | trustedOrg : ScalarField .trigger String
  | joinOrgUrl : ScalarField .trigger String
  | onlyOrgMembers : ScalarField .trigger Bool
  | ignoreOkToTest : ScalarField .trigger Bool
  | issueRequired : ScalarField .approve Bool
  | requireSelfApproval : ScalarField .approve Bool
  | lgtmActsAsApprove : ScalarField .approve Bool
  | ignoreReviewState : ScalarField .approve Bool
  | reviewActsAsLgtm : ScalarField .lgtm Bool
  | storeTreeHash : ScalarField .lgtm Bool
  | trustedTeamForStickyLgtm : ScalarField .lgtm String
  | syncPeriod : ScalarField .merger String
  | statusUpdatePeriod : ScalarField .merger String
  | targetUrl : ScalarField .merger String
  | prStatusBaseUrl : ScalarField .merger String
  | blockerLabel : ScalarField .merger String
  | squashLabel : ScalarField .merger String
  | maxGoroutines : ScalarField .merger UInt32
  | mergeMethod : ScalarField .merger String
  | skipUnknownContexts : ScalarField .contextPolicy Bool
  | fromBranchProtection : ScalarField .contextPolicy Bool

/-- A list in a record. -/
inductive ListField : Record → Type → Type where
  | externalPlugins : ListField .fragment ExternalPlugin
  | plugins : ListField .fragment String
  | welcome : ListField .fragment WelcomeMessage
  | attachments : ListField .fragment Attachment
  | contexts : ListField .checks String
  | users : ListField .restrictions String
  | teams : ListField .restrictions String
  | includeBranches : ListField .rules String
  | excludeBranches : ListField .rules String
  | requiredContexts : ListField .contextPolicy String
  | optionalContexts : ListField .contextPolicy String
  | requiredIfPresentContexts : ListField .contextPolicy String

/-- A map in a record. -/
inductive MapField : Record → Type → Type where
  | branches : MapField .protection BranchRules
  | files : MapField .files ConfigMapTarget

variable {α : Type} {r : Record}

/-- The record of a fragment, if there is one. -/
def Record.get? : (r : Record) → Fragment → Option r.Carrier
  | .fragment, f => some f
  | .agent, f => f.schedulerAgent
  | .protection, f => f.policy
  | .rules, f => f.policy.bind (·.policy)
  | .checks, f => (f.policy.bind (·.policy)).bind (·.requiredStatusChecks)
  | .restrictions, f => (f.policy.bind (·.policy)).bind (·.restrictions)
  | .reviews, f => (f.policy.bind (·.policy)).bind (·.requiredPullRequestReviews)
  | .trigger, f => f.trigger
  | .approve, f => f.approve
  | .lgtm, f => f.lgtm
  | .merger, f => f.merger
  | .contextPolicy, f => f.merger.bind (·.contextPolicy)
  | .files, f => f.configUpdater

/-- What is found in the record of a fragment. -/
def Record.reach (r : Record) (get : r.Carrier → Option α) (f : Fragment) : Option α :=
  (r.get? f).bind get

def ScalarField.get? : ScalarField r α → r.Carrier → Option α
  | .agent => Agent.agent
  | .protectTested => Protection.protectTested
  | .protect => BranchRules.protect
  | .admins => BranchRules.admins
  | .strict => StatusChecks.strict
  | .dismissStaleReviews => ReviewRules.dismissStaleReviews
  | .requireCodeOwnerReviews => ReviewRules.requireCodeOwnerReviews
  | .requiredApprovingReviewCount => ReviewRules.requiredApprovingReviewCount
  | .trustedOrg => TriggerRules.trustedOrg
  | .joinOrgUrl => TriggerRules.joinOrgUrl
  | .onlyOrgMembers => TriggerRules.onlyOrgMembers
  | .ignoreOkToTest => TriggerRules.ignoreOkToTest
  | .issueRequired => ApproveRules.issueRequired
  | .requireSelfApproval => ApproveRules.requireSelfApproval
  | .lgtmActsAsApprove => ApproveRules.lgtmActsAsApprove
  | .ignoreReviewState => ApproveRules.ignoreReviewState
  | .reviewActsAsLgtm => LgtmRules.reviewActsAsLgtm
  | .storeTreeHash => LgtmRules.storeTreeHash
  | .trustedTeamForStickyLgtm => LgtmRules.trustedTeamForStickyLgtm
  | .syncPeriod => MergeRules.syncPeriod
  | .statusUpdatePeriod => MergeRules.statusUpdatePeriod
  | .targetUrl => MergeRules.targetUrl
  | .prStatusBaseUrl => MergeRules.prStatusBaseUrl
  | .blockerLabel => MergeRules.blockerLabel
  | .squashLabel => MergeRules.squashLabel
  | .maxGoroutines => MergeRules.maxGoroutines
  | .mergeMethod => MergeRules.mergeMethod
  | .skipUnknownContexts => ContextRules.skipUnknownContexts
  | .fromBranchProtection => ContextRules.fromBranchProtection

def ListField.get? : ListField r α → r.Carrier → Option (ReplaceList α)
  | .externalPlugins => Fragment.externalPlugins
  | .plugins => Fragment.plugins
  | .welcome => Fragment.welcome
  | .attachments => Fragment.attachments
  | .contexts => StatusChecks.contexts
  | .users => PushRestrictions.users
  | .teams => PushRestrictions.teams
  | .includeBranches => BranchRules.includeBranches
  | .excludeBranches => BranchRules.excludeBranches
  | .requiredContexts => ContextRules.requiredContexts
  | .optionalContexts => ContextRules.optionalContexts
  | .requiredIfPresentContexts => ContextRules.requiredIfPresentContexts

def MapField.get? : MapField r α → r.Carrier → Option (Keyed α)
  | .branches => Protection.branches
  | .files => PublishedFiles.map

/-- The value that a map of a fragment holds under a key. -/
def MapField.value? (m : MapField r α) (key : String) (f : Fragment) : Option α :=
  (r.reach m.get? f).bind (·.get? key)

/-- **What a chain means**, lowest fragment first. -/
structure Meaning (chain : List Fragment) (f : Fragment) : Prop where
  /-- A record inside a fragment is present when some fragment has it. -/
  records (r : Record) (h : r ≠ .fragment) :
    (r.get? f).isSome = chain.any fun g => (r.get? g).isSome
  /-- A scalar is the one of the highest fragment that sets it. -/
  scalars (α : Type) (r : Record) (s : ScalarField r α) :
    r.reach s.get? f = chain.reverse.findSome? (r.reach s.get?)
  /-- A list is what the visible lists have between them. -/
  lists (α : Type) [DecidableEq α] (r : Record) (l : ListField r α) :
    r.reach l.get? f = ReplaceList.merged (chain.reverse.filterMap (r.reach l.get?))
  /-- A job section is what the visible sections have between them. -/
  jobs (s : JobSection) : s.jobs? f = JobSet.merged (chain.reverse.filterMap s.jobs?)
  /-- A job name stands for the job of the highest visible section that defines it. -/
  jobNamed (s : JobSection) (name : String) :
    ((s.jobs? f).bind fun set => set.items.find? (·.name == name)) =
      (visible JobSet.replace (chain.reverse.filterMap s.jobs?)).findSome? fun set =>
        set.items.find? (·.name == name)
  /-- A map is present when some fragment has it. -/
  maps (α : Type) (r : Record) (m : MapField r α) :
    (r.reach m.get? f).isSome = chain.any fun g => (r.reach m.get? g).isSome
  /-- A key of a map has the value of the highest fragment that has the key. -/
  keys (α : Type) (r : Record) (m : MapField r α) (key : String) :
    m.value? key f = chain.reverse.findSome? (m.value? key)
  /-- The queries of lower fragments are pooled into those of the highest fragment that has some. -/
  queries : PooledQueries (chain.reverse.filterMap (Record.merger.reach MergeRules.queries))
    (Record.merger.reach MergeRules.queries f)

/-! ### Fields of fragments laid over one another -/

/-- A record is laid over another field by field, whichever it is. -/
instance (r : Record) : Onto r.Carrier :=
  match r with
  | .fragment => inferInstanceAs (Onto Fragment)
  | .agent => inferInstanceAs (Onto Agent)
  | .protection => inferInstanceAs (Onto Protection)
  | .rules => inferInstanceAs (Onto BranchRules)
  | .checks => inferInstanceAs (Onto StatusChecks)
  | .restrictions => inferInstanceAs (Onto PushRestrictions)
  | .reviews => inferInstanceAs (Onto ReviewRules)
  | .trigger => inferInstanceAs (Onto TriggerRules)
  | .approve => inferInstanceAs (Onto ApproveRules)
  | .lgtm => inferInstanceAs (Onto LgtmRules)
  | .merger => inferInstanceAs (Onto MergeRules)
  | .contextPolicy => inferInstanceAs (Onto ContextRules)
  | .files => inferInstanceAs (Onto PublishedFiles)

theorem Record.get?_onto (r : Record) (a b : Fragment) :
    r.get? (onto a b) = onto (r.get? a) (r.get? b) := by
  have hrules : ∀ x y : Option Protection,
      (onto x y).bind (·.policy) = onto (x.bind (·.policy)) (y.bind (·.policy)) :=
    bind_onto none_onto onto_none fun _ _ => rfl
  -- a record further inside is reached through the records around it
  cases r with
  | rules => exact hrules a.policy b.policy
  | checks =>
    change ((onto a.policy b.policy).bind _).bind _ = _
    rw [hrules]
    exact bind_onto none_onto onto_none (fun _ _ => rfl) _ _
  | restrictions =>
    change ((onto a.policy b.policy).bind _).bind _ = _
    rw [hrules]
    exact bind_onto none_onto onto_none (fun _ _ => rfl) _ _
  | reviews =>
    change ((onto a.policy b.policy).bind _).bind _ = _
    rw [hrules]
    exact bind_onto none_onto onto_none (fun _ _ => rfl) _ _
  | contextPolicy => exact bind_onto none_onto onto_none (fun _ _ => rfl) a.merger b.merger
  | _ => rfl

theorem Record.reach_onto (r : Record) {get : r.Carrier → Option α}
    {c : Option α → Option α → Option α} (hleft : ∀ x, c none x = x) (hright : ∀ x, c x none = x)
    (hget : ∀ x y, get (onto x y) = c (get x) (get y)) (a b : Fragment) :
    r.reach get (onto a b) = c (r.reach get a) (r.reach get b) := by
  unfold reach
  rw [r.get?_onto, bind_onto hleft hright hget]

theorem onto_eq_or [Onto α] (h : ∀ own donor : α, onto own donor = own) (x y : Option α) :
    onto x y = x.or y := by
  cases x with
  | none => rw [none_onto, Option.none_or]
  | some own =>
    cases y with
    | none => rw [onto_none, Option.or_none]
    | some donor => rw [some_onto_some, h, Option.some_or]

theorem ScalarField.reach_onto (s : ScalarField r α) (a b : Fragment) :
    r.reach s.get? (onto a b) = (r.reach s.get? a).or (r.reach s.get? b) := by
  refine r.reach_onto (fun _ => Option.none_or) (fun _ => Option.or_none) (fun x y => ?_) a b
  cases s <;> exact onto_eq_or (fun _ _ => rfl) _ _

/-- How the items of a list are told apart. -/
@[reducible] def ListField.decidableEq : ListField r α → DecidableEq α
  | .externalPlugins => inferInstanceAs (DecidableEq ExternalPlugin)
  | .plugins => inferInstanceAs (DecidableEq String)
  | .welcome => inferInstanceAs (DecidableEq WelcomeMessage)
  | .attachments => inferInstanceAs (DecidableEq Attachment)
  | .contexts => inferInstanceAs (DecidableEq String)
  | .users => inferInstanceAs (DecidableEq String)
  | .teams => inferInstanceAs (DecidableEq String)
  | .includeBranches => inferInstanceAs (DecidableEq String)
  | .excludeBranches => inferInstanceAs (DecidableEq String)
  | .requiredContexts => inferInstanceAs (DecidableEq String)
  | .optionalContexts => inferInstanceAs (DecidableEq String)
  | .requiredIfPresentContexts => inferInstanceAs (DecidableEq String)

theorem ListField.reach_onto [inst : DecidableEq α] (l : ListField r α) (a b : Fragment) :
    r.reach l.get? (onto a b) = onto (r.reach l.get? a) (r.reach l.get? b) := by
  refine r.reach_onto none_onto onto_none (fun x y => ?_) a b
  -- equality is decided in one way only, so it is the one that the fields are merged with
  obtain rfl : inst = l.decidableEq := Subsingleton.elim _ _
  cases l <;> rfl

theorem MapField.reach_onto (m : MapField r α) (a b : Fragment) :
    r.reach m.get? (onto a b) = onto (r.reach m.get? a) (r.reach m.get? b) := by
  refine r.reach_onto none_onto onto_none (fun x y => ?_) a b
  cases m <;> rfl

theorem MapField.value?_onto (m : MapField r α) (key : String) (a b : Fragment) :
    m.value? key (onto a b) = (m.value? key a).or (m.value? key b) := by
  unfold value?
  rw [m.reach_onto]
  exact bind_onto (fun _ => Option.none_or) (fun _ => Option.or_none)
    (fun own donor => Keyed.get?_onto own donor key) _ _

theorem queries_onto (a b : Fragment) :
    Record.merger.reach MergeRules.queries (onto a b) =
      onto (Record.merger.reach MergeRules.queries a)
        (Record.merger.reach MergeRules.queries b) :=
  Record.merger.reach_onto none_onto onto_none (fun _ _ => rfl) a b

/-! ### Fields of stacked fragments -/

/-- A field that combines by taking the first value has the first value of the chain. -/
theorem get_stack_eq_findSome? {get : Fragment → Option α} (hempty : get ∅ = none)
    (honto : ∀ a b, get (onto a b) = (get a).or (get b)) (chain : List Fragment) :
    get (stack chain) = chain.reverse.findSome? get := by
  induction chain with
  | nil => exact hempty
  | cons f chain ih =>
    rw [stack_cons, honto, ih, List.reverse_cons, List.findSome?_append, List.findSome?_singleton]

/-- A field is present when the chain has it somewhere. -/
theorem isSome_get_stack [Onto α] {get : Fragment → Option α} (hempty : get ∅ = none)
    (honto : ∀ a b, get (onto a b) = onto (get a) (get b)) (chain : List Fragment) :
    (get (stack chain)).isSome = chain.any fun f => (get f).isSome := by
  induction chain with
  | nil => rw [stack_nil, hempty]; rfl
  | cons f chain ih => rw [stack_cons, honto, isSome_onto, ih, List.any_cons, Bool.or_comm]

/-- A field is what its values in the chain are merged to, when merging one value more is laying the
others over it. -/
theorem get_stack_eq_merged [Onto α] {merged : List α → Option α} {get : Fragment → Option α}
    (hnil : merged [] = none) (hsnoc : ∀ xs x, merged (xs ++ [x]) = onto (merged xs) (some x))
    (hempty : get ∅ = none) (honto : ∀ a b, get (onto a b) = onto (get a) (get b))
    (chain : List Fragment) : get (stack chain) = merged (chain.reverse.filterMap get) := by
  induction chain with
  | nil => rw [stack_nil, hempty, List.reverse_nil, List.filterMap_nil, hnil]
  | cons f chain ih =>
    -- the lowest fragment comes last among those given highest first
    rw [stack_cons, honto, ih, List.reverse_cons, List.filterMap_append]
    cases hf : get f with
    | none => rw [List.filterMap_cons_none hf, List.filterMap_nil, List.append_nil, onto_none]
    | some x => rw [List.filterMap_cons_some hf, List.filterMap_nil, hsnoc]

/-! ### Fragments by their fields -/

/-- Two optional records are the same when they are present together and agree. -/
theorem option_eq_of_forall {x y : Option α} (hsome : x.isSome = y.isSome)
    (h : ∀ a ∈ x, ∀ b ∈ y, a = b) : x = y := by
  cases x with
  | none =>
    cases y with
    | none => rfl
    | some b => cases hsome
  | some a =>
    cases y with
    | none => cases hsome
    | some b => rw [h a rfl b rfl]

/-- What two records hold is the same when it is the same from the fragments. -/
theorem Record.get_eq_of_reach {get : r.Carrier → Option α} {f g : Fragment}
    (h : r.reach get f = r.reach get g) {x y : r.Carrier} (hx : x ∈ r.get? f) (hy : y ∈ r.get? g) :
    get x = get y := by
  rw [Option.mem_def] at hx hy
  unfold reach at h
  rwa [hx, hy] at h

/-- **A fragment is its fields.** Fragments with the same records, and in them the same scalars,
lists, maps and queries, are the same when their job sections are. -/
theorem ext_fields {f g : Fragment}
    (records : ∀ r : Record, (r.get? f).isSome = (r.get? g).isSome)
    (scalars : ∀ (α : Type) (r : Record) (s : ScalarField r α), r.reach s.get? f = r.reach s.get? g)
    (lists : ∀ (α : Type) (r : Record) (l : ListField r α), r.reach l.get? f = r.reach l.get? g)
    (maps : ∀ (α : Type) (r : Record) (m : MapField r α), r.reach m.get? f = r.reach m.get? g)
    (jobs : ∀ s : JobSection, s.jobs? f = s.jobs? g)
    (queries :
      Record.merger.reach MergeRules.queries f = Record.merger.reach MergeRules.queries g) :
    f = g := by
  -- a field of two records that the fragments have is the same in both
  have scalar {α : Type} {r : Record} (s : ScalarField r α) {x y : r.Carrier} (hx : x ∈ r.get? f)
      (hy : y ∈ r.get? g) : s.get? x = s.get? y := Record.get_eq_of_reach (scalars α r s) hx hy
  have list {α : Type} {r : Record} (l : ListField r α) {x y : r.Carrier} (hx : x ∈ r.get? f)
      (hy : y ∈ r.get? g) : l.get? x = l.get? y := Record.get_eq_of_reach (lists α r l) hx hy
  have map {α : Type} {r : Record} (m : MapField r α) {x y : r.Carrier} (hx : x ∈ r.get? f)
      (hy : y ∈ r.get? g) : m.get? x = m.get? y := Record.get_eq_of_reach (maps α r m) hx hy
  -- the records from the inside out, each from those that it holds
  have checks : Record.checks.get? f = Record.checks.get? g :=
    option_eq_of_forall (records .checks) fun x hx y hy =>
      StatusChecks.ext (list .contexts hx hy) (scalar .strict hx hy)
  have restrictions : Record.restrictions.get? f = Record.restrictions.get? g :=
    option_eq_of_forall (records .restrictions) fun x hx y hy =>
      PushRestrictions.ext (list .users hx hy) (list .teams hx hy)
  have reviews : Record.reviews.get? f = Record.reviews.get? g :=
    option_eq_of_forall (records .reviews) fun x hx y hy =>
      ReviewRules.ext (scalar .dismissStaleReviews hx hy) (scalar .requireCodeOwnerReviews hx hy)
        (scalar .requiredApprovingReviewCount hx hy)
  have contextPolicy : Record.contextPolicy.get? f = Record.contextPolicy.get? g :=
    option_eq_of_forall (records .contextPolicy) fun x hx y hy =>
      ContextRules.ext (list .requiredContexts hx hy) (list .optionalContexts hx hy)
        (list .requiredIfPresentContexts hx hy) (scalar .skipUnknownContexts hx hy)
        (scalar .fromBranchProtection hx hy)
  have rules : Record.rules.get? f = Record.rules.get? g :=
    option_eq_of_forall (records .rules) fun x hx y hy =>
      BranchRules.ext (scalar .protect hx hy) (Record.rules.get_eq_of_reach checks hx hy)
        (scalar .admins hx hy) (Record.rules.get_eq_of_reach restrictions hx hy)
        (Record.rules.get_eq_of_reach reviews hx hy) (list .includeBranches hx hy)
        (list .excludeBranches hx hy)
  have protection : f.policy = g.policy :=
    option_eq_of_forall (records .protection) fun x hx y hy =>
      Protection.ext (scalar .protectTested hx hy) (Record.protection.get_eq_of_reach rules hx hy)
        (map .branches hx hy)
  have merger : f.merger = g.merger :=
    option_eq_of_forall (records .merger) fun x hx y hy =>
      MergeRules.ext (scalar .syncPeriod hx hy) (scalar .statusUpdatePeriod hx hy)
        (scalar .targetUrl hx hy) (scalar .prStatusBaseUrl hx hy) (scalar .blockerLabel hx hy)
        (scalar .squashLabel hx hy) (scalar .maxGoroutines hx hy) (scalar .mergeMethod hx hy)
        (Record.merger.get_eq_of_reach queries hx hy)
        (Record.merger.get_eq_of_reach contextPolicy hx hy)
  have agent : f.schedulerAgent = g.schedulerAgent :=
    option_eq_of_forall (records .agent) fun x hx y hy => Agent.ext (scalar .agent hx hy)
  have trigger : f.trigger = g.trigger :=
    option_eq_of_forall (records .trigger) fun x hx y hy =>
      TriggerRules.ext (scalar .trustedOrg hx hy) (scalar .joinOrgUrl hx hy)
        (scalar .onlyOrgMembers hx hy) (scalar .ignoreOkToTest hx hy)
  have approve : f.approve = g.approve :=
    option_eq_of_forall (records .approve) fun x hx y hy =>
      ApproveRules.ext (scalar .issueRequired hx hy) (scalar .requireSelfApproval hx hy)
        (scalar .lgtmActsAsApprove hx hy) (scalar .ignoreReviewState hx hy)
  have lgtm : f.lgtm = g.lgtm :=
    option_eq_of_forall (records .lgtm) fun x hx y hy =>
      LgtmRules.ext (scalar .reviewActsAsLgtm hx hy) (scalar .storeTreeHash hx hy)
        (scalar .trustedTeamForStickyLgtm hx hy)
  have files : f.configUpdater = g.configUpdater :=
    option_eq_of_forall (records .files) fun x hx y hy => PublishedFiles.ext (map .files hx hy)
  -- what is left are the fields of the fragment itself
  have hf : f ∈ Record.fragment.get? f := rfl
  have hg : g ∈ Record.fragment.get? g := rfl
  exact Fragment.ext agent protection (jobs .presubmits) (jobs .postsubmits) (jobs .periodics)
    trigger approve lgtm (list .externalPlugins hf hg) (list .plugins hf hg) merger files
    (list .welcome hf hg) (list .attachments hf hg)

/-! ### The meaning of a chain -/

theorem jobs?_stack (s : JobSection) (chain : List Fragment) :
    s.jobs? (stack chain) = JobSet.merged (chain.reverse.filterMap s.jobs?) :=
  get_stack_eq_merged rfl JobSet.merged_append_singleton (by cases s <;> rfl) (jobs?_onto s) chain

theorem meaning_stack (chain : List Fragment) : Meaning chain (stack chain) where
  records r h := by
    refine isSome_get_stack ?_ r.get?_onto chain
    cases r with
    | fragment => exact absurd rfl h
    | _ => rfl
  scalars α r s := get_stack_eq_findSome? (by cases s <;> rfl) s.reach_onto chain
  lists α _ r l :=
    get_stack_eq_merged rfl ReplaceList.merged_append_singleton (by cases l <;> rfl) l.reach_onto
      chain
  jobs s := jobs?_stack s chain
  jobNamed s name := by
    -- the first visible job of a name is the one that is found
    rw [jobs?_stack, JobSet.merged]
    split
    · next h =>
      rw [List.isEmpty_iff.1 h]
      rfl
    · exact find?_joined _ name
  maps α r m := isSome_get_stack (by cases m <;> rfl) m.reach_onto chain
  keys α r m key := get_stack_eq_findSome? (by cases m <;> rfl) (m.value?_onto key) chain
  queries := by
    rw [get_stack_eq_merged rfl mergedQueries_append_singleton rfl queries_onto chain]
    exact pooledQueries_merged _

/-- The meaning of a chain leaves nothing open. -/
theorem Meaning.unique {chain : List Fragment} {f g : Fragment} (hf : Meaning chain f)
    (hg : Meaning chain g) : f = g := by
  refine ext_fields (fun r => ?_) (fun α r s => ?_) (fun α r l => ?_) (fun α r m => ?_)
    (fun s => ?_) ?_
  · -- the fragment itself is always there, the other records when the chain has them
    by_cases h : r = .fragment
    · subst h
      rfl
    · rw [hf.records r h, hg.records r h]
  · rw [hf.scalars, hg.scalars]
  · have := l.decidableEq
    rw [hf.lists, hg.lists]
  · -- maps are present together, and hold the same under every key
    refine option_eq_of_forall (by rw [hf.maps, hg.maps]) fun x hx y hy => ?_
    refine Keyed.ext_get? fun key => ?_
    have hkey : m.value? key f = m.value? key g := by rw [hf.keys, hg.keys]
    rw [Option.mem_def] at hx hy
    unfold MapField.value? at hkey
    rwa [hx, hy] at hkey
  · rw [hf.jobs, hg.jobs]
  · exact hf.queries.unique hg.queries

/-- **What is built has the meaning of the chain**, and nothing else has it. -/
theorem build_meaning {chain : List Fragment} {f : Fragment} (h : build chain = .ok f) :
    Meaning chain f ∧ ∀ g, Meaning chain g → g = f := by
  obtain rfl := eq_stack_of_build h
  exact ⟨meaning_stack chain, fun g hg => hg.unique (meaning_stack chain)⟩

/-- The group's list replaces: the repository's plugins come first, the group's after them, and the
team's are out of sight. Approval settings come from two levels, a key of a map from the highest,
and the two queries of one search share an entry. -/
theorem build_meaning_of_three :
    let team : Fragment := {
      plugins := some { items := ["lgtm", "hold"] }
      approve := some { issueRequired := some true, ignoreReviewState := some true }
      merger := some {
        queries := some [{ repos := ["acme/shop", "acme/docs"], labels := ["lgtm"] }] }
      presubmits := some { items := [{ name := "lint", agent := some "tekton" }] }
      configUpdater := some { map := some (.ofList [("a.yaml", { name := "team" })]) } }
    let group : Fragment := {
      plugins := some { items := ["lgtm", "size"], replace := true }
      approve := some { issueRequired := some false } }
    let own : Fragment := {
      plugins := some { items := ["trigger", "size"] }
      merger := some { queries := some [{ repos := ["acme/docs"], labels := ["lgtm"] }] }
      presubmits := some { items := [{ name := "lint" }] }
      configUpdater := some { map := some (.ofList [("a.yaml", { name := "own" })]) } }
    ∃ f, build [team, group, own] = .ok f ∧ Meaning [team, group, own] f ∧
      f.plugins = some { items := ["trigger", "size", "lgtm"], replace := true } ∧
      f.approve.bind (·.issueRequired) = some false ∧
      f.approve.bind (·.ignoreReviewState) = some true ∧
      (f.presubmits.map fun set => set.items.map fun job => (job.name, job.agent)) =
        some [("lint", none)] ∧
      f.configUpdater.bind (fun files => files.map.bind (·.get? "a.yaml")) =
        some { name := "own" } ∧
      f.merger.bind (·.queries) =
        some [{ repos := ["acme/docs", "acme/shop"], labels := ["lgtm"] }] := by
  intro team group own
  have hbuild : build [team, group, own] = .ok (stack [team, group, own]) :=
    build_of_canonical (by decide)
  obtain ⟨hmeaning, -⟩ := build_meaning hbuild
  refine ⟨_, hbuild, hmeaning, ?_, ?_, ?_, ?_, ?_, ?_⟩
  · exact (hmeaning.lists String .fragment .plugins).trans (by decide)
  · exact (hmeaning.scalars Bool .approve .issueRequired).trans (by decide)
  · exact (hmeaning.scalars Bool .approve .ignoreReviewState).trans (by decide)
  · exact congrArg (Option.map _) (hmeaning.jobs .presubmits)
  · exact (hmeaning.keys ConfigMapTarget .files .files "a.yaml").trans (by decide)
  · exact (hmeaning.queries.unique (pooledQueries_merged _)).trans (by decide)

end Fragment

end SchedulerPolicy
