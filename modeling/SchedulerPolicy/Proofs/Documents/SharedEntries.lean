import SchedulerPolicy.Proofs.Documents.Enumerated
import SchedulerPolicy.Proofs.Documents.MergeQueue
import SchedulerPolicy.Proofs.Documents.Neighbours
import SchedulerPolicy.Proofs.Documents.Shared

/-!
# Entries that repositories share

A query and a welcome message do not stand under the key of a repository. They are entries of a list
and name the repositories that they are for, and leaves with one search, or with one message, share
an entry. Which entries there are, in which order, and which repositories they name is settled here
for any leaves, be their keys distinct or not (`GroupsLeaves`): the entries are the labels in the
order in which the leaves first bring them, and an entry names the leaves that have its label. The
repositories that a query of a leaf lists itself play no part.

`recover` reads the entries the other way, repository by repository, with a filter of its own. What
it finds for a key are again the labels of the leaves with that key (`mem_named_grouped`).
-/

namespace SchedulerPolicy

variable {leaves : List Leaf} {d : Documents}

/-! ### Groups of leaves -/

section Groups

variable {ε κ : Type} [DecidableEq κ] {labelsOf : Leaf → List κ}

/-- Entries for labels that leaves have. -/
structure GroupsLeaves (label : ε → κ) (repos : ε → List String) (labelsOf : Leaf → List κ)
    (leaves : List Leaf) (entries : List ε) : Prop where
  /-- Every label has one entry. -/
  distinct : (entries.map label).Nodup
  /-- Labels stand in the order of their first occurrence. -/
  inOrder : entries.map label = (leaves.flatMap labelsOf).eraseDups
  /-- An entry names the leaves with its label, in their order. -/
  listed : ∀ e ∈ entries,
    repos e = ((leaves.filter fun l => label e ∈ labelsOf l).map Leaf.key).eraseDups
  /-- It names none of them twice. -/
  once : ∀ e ∈ entries, (repos e).Nodup

theorem nodup_labels_grouped (labelsOf : Leaf → List κ) (leaves : List Leaf) :
    (labels (grouped Leaf.key labelsOf leaves [])).Nodup := by
  rw [labels_grouped]
  exact nodup_appendNew List.nodup_nil

/-- Entries that are groups of leaves. -/
theorem groupsLeaves_of_grouped {pooled : ε → κ × List String} {entries : List ε}
    (h : entries.map pooled = grouped Leaf.key labelsOf leaves []) :
    GroupsLeaves (fun e => (pooled e).1) (fun e => (pooled e).2) labelsOf leaves entries := by
  have hlabels : entries.map (fun e => (pooled e).1) =
      labels (grouped Leaf.key labelsOf leaves []) := by
    rw [← h]
    exact List.map_map.symm
  -- an entry names the members of its group
  have hmembers : ∀ e ∈ entries, (pooled e).2 =
      appendNew id [] ((leaves.filter fun l => (pooled e).1 ∈ labelsOf l).map Leaf.key) := by
    intro e he
    have hmem : pooled e ∈ grouped Leaf.key labelsOf leaves [] := h ▸ List.mem_map_of_mem he
    rw [← members_of_mem (nodup_labels_grouped labelsOf leaves) hmem, members_grouped]
    rfl
  refine { distinct := ?distinct, inOrder := ?inOrder, listed := ?listed, once := ?once }
  case distinct =>
    rw [hlabels]
    exact nodup_labels_grouped labelsOf leaves
  case inOrder =>
    rw [hlabels, labels_grouped]
    exact appendNew_onto_nil _
  case listed =>
    intro e he
    rw [hmembers e he]
    exact appendNew_onto_nil _
  case once =>
    intro e he
    rw [hmembers e he]
    exact nodup_appendNew List.nodup_nil

/-- What is read back for a key: the labels of the leaves with that key. -/
theorem mem_named_grouped {key : String} {x : κ} :
    x ∈ named key (grouped Leaf.key labelsOf leaves []) ↔
      ∃ l ∈ leaves, l.key = key ∧ x ∈ labelsOf l := by
  rw [mem_named_iff (nodup_labels_grouped labelsOf leaves), members_grouped, mem_appendNew,
    List.mem_map]
  constructor
  · rintro (hnil | ⟨l, hl, hkey⟩)
    · cases hnil
    · obtain ⟨hmem, hlabel⟩ := List.mem_filter.1 hl
      exact ⟨l, hmem, hkey, of_decide_eq_true hlabel⟩
  · rintro ⟨l, hl, hkey, hlabel⟩
    exact Or.inr ⟨l, List.mem_filter.2 ⟨hl, decide_eq_true hlabel⟩, hkey⟩

end Groups

/-! ### The policy of a recovered repository -/

/-- The searches of a fragment, wherever they search. -/
def Fragment.searches (f : Fragment) : List Query :=
  ((f.merger.bind (·.queries)).getD []).map Query.search

/-- The welcome messages of a fragment. -/
def Fragment.messages (f : Fragment) : List String := (itemsOf f.welcome).map (·.messageTemplate)

theorem searches_repositoryFragment (d : Documents) (key org repo : String) :
    (Recover.repositoryFragment d key org repo).searches =
      named key (d.jobs.keeper.queries.map Query.pooled) := by
  unfold Fragment.searches
  change (((Recover.mergeRules? d.jobs.keeper key org repo).bind (·.queries)).getD []).map _ = _
  rw [bind_mergeRules? rfl]
  dsimp only
  rw [getD_nonEmpty, map_search_filter]

theorem messages_repositoryFragment (d : Documents) (key org repo : String) :
    (Recover.repositoryFragment d key org repo).messages =
      named key (d.plugins.welcome.map WelcomeEntry.pooled) := by
  rw [← map_message_filter]
  change (itemsOf (listOf _)).map _ = _
  rw [itemsOf_listOf, List.map_map]
  rfl

/-! ### There and back -/

/-- What is found of labels for a key is what the leaves with that key have, each label once. -/
structure Gathers {κ : Type} (labelsOf : Leaf → List κ) (leaves : List Leaf) (key : String)
    (found : List κ) : Prop where
  once : found.Nodup
  mem_iff : ∀ x, x ∈ found ↔ ∃ l ∈ leaves, l.key = key ∧ x ∈ labelsOf l

theorem gathers_named {κ : Type} [DecidableEq κ] (labelsOf : Leaf → List κ) (leaves : List Leaf)
    (key : String) :
    Gathers labelsOf leaves key (named key (grouped Leaf.key labelsOf leaves [])) where
  once := nodup_named (nodup_labels_grouped labelsOf leaves) key
  mem_iff _ := mem_named_grouped

/-- **Queries and welcome messages are grouped exactly**, and come apart again. The queries of the
documents are the searches of the leaves, each with the leaves that have it, and so are the welcome
entries for messages. When no repository holds a slash schedulers are recovered from the documents,
and in any case the scheduler of a recovered repository has just the searches and the messages of
the leaves with its key. -/
theorem groupsLeaves_of_compile (hd : compile leaves = .ok d) :
    GroupsLeaves Query.search Query.repos Leaf.searches leaves d.jobs.keeper.queries ∧
    GroupsLeaves WelcomeEntry.messageTemplate WelcomeEntry.repos Leaf.messages leaves
      d.plugins.welcome ∧
    ((∀ l ∈ leaves, '/' ∉ l.repo.toList) → ∃ r, recover d = .ok r) ∧
    ∀ r, recover d = .ok r → ∀ s ∈ r.repositories, ∃ policy, r.policy? s = some policy ∧
      Gathers Leaf.searches leaves (SourceRepository.key s) policy.searches ∧
      Gathers Leaf.messages leaves (SourceRepository.key s) policy.messages := by
  obtain ⟨hnames, rfl⟩ := compile_eq_ok_iff.1 hd
  have hqueries : (documents leaves).jobs.keeper.queries.map Query.pooled =
      grouped Leaf.key Leaf.searches leaves [] := map_pooled_queries leaves
  have hwelcome : (documents leaves).plugins.welcome.map WelcomeEntry.pooled =
      grouped Leaf.key Leaf.messages leaves [] := map_pooled_welcome leaves
  refine ⟨groupsLeaves_of_grouped hqueries, groupsLeaves_of_grouped hwelcome, fun hslash => ?_,
    fun r hr s hs => ?_⟩
  · obtain ⟨r, hr, -⟩ := recover_documents hnames hslash
    exact ⟨r, hr⟩
  · refine ⟨_, (complete_of_recover hr).policy?_eq hs, ?_, ?_⟩
    · -- the queries that name the repository are recovered for it, and they were grouped
      rw [searches_repositoryFragment, hqueries]
      exact gathers_named _ _ _
    · rw [messages_repositoryFragment, hwelcome]
      exact gathers_named _ _ _

namespace Approvals

/-- A search that is meant for another repository, or so it says. -/
def approved : Query := { repos := ["acme/other"], labels := ["approved"] }

def urgent : Query := { labels := ["urgent"] }

/-- Two repositories with a search in common, one of which repeats itself. -/
def team : List Leaf := [
  { org := "acme"
    repo := "shop"
    fragment := {
      merger := some { mergeMethod := some "squash", queries := some [urgent, approved, urgent] }
      welcome := some { items := [{ messageTemplate := "hello" }] } } },
  { org := "acme"
    repo := "depot"
    fragment := { merger := some { mergeMethod := some "rebase", queries := some [approved] } } }]

theorem groupsLeaves_of_team :
    ∃ d, compile team = .ok d ∧
      d.jobs.keeper.queries = [
        { urgent with repos := ["acme/shop"] },
        { approved with repos := ["acme/shop", "acme/depot"] }] ∧
      GroupsLeaves Query.search Query.repos Leaf.searches team d.jobs.keeper.queries ∧
      ∃ r, recover d = .ok r ∧ ∀ s ∈ r.repositories, ∃ policy, r.policy? s = some policy ∧
        Gathers Leaf.searches team (SourceRepository.key s) policy.searches := by
  have hd : compile team = .ok (documents team) := compile_eq_ok (by decide)
  have hqueries : (documents team).jobs.keeper.queries = [
      { urgent with repos := ["acme/shop"] },
      { approved with repos := ["acme/shop", "acme/depot"] }] := by decide
  obtain ⟨hgroups, -, haccepted, hpolicies⟩ := groupsLeaves_of_compile hd
  obtain ⟨r, hr⟩ := haccepted (by decide)
  refine ⟨_, hd, hqueries, hgroups, r, hr, fun s hs => ?_⟩
  obtain ⟨policy, hpolicy, hsearches, -⟩ := hpolicies r hr s hs
  exact ⟨policy, hpolicy, hsearches⟩

end Approvals

end SchedulerPolicy
