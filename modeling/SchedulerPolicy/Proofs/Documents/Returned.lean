import SchedulerPolicy.Proofs.Documents.Mentions
import SchedulerPolicy.Proofs.Documents.Recovery

/-!
# Sections in which a repository has a place of its own

Leaves are compiled, and from their documents leaves are generated again (`returned`). They are not
the leaves that one began with: a repository without a key in the documents is gone, lists have lost
what they repeated, and every leaf has taken over what the team says. Yet in a section in which a
repository has a place of its own, a leaf that comes back says what it said before, and a leaf that
does not had nothing to say (`Survives`). Such a section is the same for both lists of leaves.
-/

namespace SchedulerPolicy

/-- The leaves that are generated from what is recovered from documents. -/
def returned (d : Documents) (leaves : List Leaf) : List Leaf :=
  restored Leaf.anchored (fun l => Recover.leaf d l.org l.repo) leaves

/-- Whether a leaf is listed in an entry of a section that does not name repositories by key. -/
def Leaf.listed (l : Leaf) : Bool :=
  l.fragment.approve.isSome || l.fragment.lgtm.isSome || l.fragment.trigger.isSome ||
    !(itemsOf l.fragment.welcome).isEmpty || !((l.fragment.merger.bind (·.queries)).getD []).isEmpty

/-- Leaves whose documents can be compiled again from what is recovered from them. -/
structure Recoverable (leaves : List Leaf) : Prop where
  /-- The leaves are in the order of their keys, which are distinct. -/
  ascending : leaves.Pairwise fun l m => l.key < m.key
  /-- The key of every leaf splits into its organisation and its repository. -/
  named : ∀ l ∈ leaves, Text.isBlank l.org = false ∧ Text.isBlank l.repo = false ∧
    '/' ∉ l.repo.toList
  /-- No organisation is the key of another repository. -/
  apart : ∀ l ∈ leaves, ∀ m ∈ leaves, l.key ≠ m.key → l.org ≠ m.key
  /-- Every leaf that is listed somewhere is named by a key as well. -/
  listed : ∀ l ∈ leaves, l.listed = true → l.anchored = true
  /-- There is a repository to recover. -/
  inhabited : ∃ l ∈ leaves, l.anchored = true
  /-- Files are published only when some repository has the plugin for it. -/
  published : (∃ l ∈ leaves, l.publishedFiles ≠ []) →
    ∃ l ∈ leaves, configUpdaterPlugin ∈ l.fragment.pluginNames

/-- What the leaves have to say in a section survives. -/
abbrev Survives {β : Type} (d : Documents) (entry : Leaf → Option β) (leaves : List Leaf) : Prop :=
  Restores Leaf.anchored (fun l => Recover.leaf d l.org l.repo) entry leaves

variable {d : Documents} {leaves : List Leaf}

namespace Recoverable

theorem nodup (h : Recoverable leaves) : (leaves.map Leaf.key).Nodup :=
  Keyed.nodup_of_ascending h.ascending

/-- No leaf stands under an organisation alone. -/
theorem itemAt_org (h : Recoverable leaves) {l : Leaf} (hl : l ∈ leaves) :
    itemAt Leaf.key leaves l.org = none := by
  refine itemAt_eq_none fun m hm hkey => ?_
  by_cases heq : l.key = m.key
  · -- a key is longer than the organisation in it
    have hlength : l.key.toList.length = l.org.toList.length := by rw [heq, hkey]
    unfold Leaf.key RepoKey.join at hlength
    simp only [String.toList_append, List.length_append] at hlength
    have hslash : "/".toList.length = 1 := rfl
    omega
  · exact h.apart l hl m hm heq hkey.symm

end Recoverable

theorem Recoverable.returned_ne_nil (h : Recoverable leaves) (d : Documents) :
    returned d leaves ≠ [] := by
  obtain ⟨l, hl, hanchored⟩ := h.inhabited
  exact List.ne_nil_of_mem (List.mem_map.2 ⟨l, List.mem_filter.2 ⟨hl, hanchored⟩, rfl⟩)

/-! ### Sections of each kind -/

section Kinds

variable {β : Type} {entry : Leaf → Option β}

theorem nodup_returned (h : (leaves.map Leaf.key).Nodup) :
    ((returned d leaves).map Leaf.key).Nodup := by
  unfold returned restored
  rw [List.map_map]
  exact h.sublist (List.filter_sublist.map Leaf.key)

/-- A map under keys stays the same. -/
theorem Survives.map_eq (hs : Survives d entry leaves) (h : (leaves.map Leaf.key).Nodup)
    {table : List Leaf → Keyed β}
    (hget : ∀ {ls : List Leaf}, (ls.map Leaf.key).Nodup → ∀ k,
      (table ls).get? k = (itemAt Leaf.key ls k).bind entry) :
    table (returned d leaves) = table leaves := by
  refine Keyed.ext_get? fun k => ?_
  rw [hget (nodup_returned h), hget h]
  exact hs.bind_itemAt_eq (fun _ _ _ => rfl) h k

/-- A tree of organisations and repositories stays the same. -/
theorem Survives.tree_eq (hs : Survives d entry leaves) (h : (leaves.map Leaf.key).Nodup)
    {γ : Type} {node : Keyed β → γ} {repos : γ → Keyed β} {tree : List Leaf → Keyed γ}
    (hpopulated : ∀ ls, (tree ls).Populated node repos)
    (hget : ∀ {ls : List Leaf}, (ls.map Leaf.key).Nodup → ∀ p,
      (tree ls).getIn? repos p = (itemAt Leaf.place ls p).bind entry) :
    tree (returned d leaves) = tree leaves := by
  refine (hpopulated _).ext (hpopulated _) fun p => ?_
  rw [hget (nodup_returned h), hget h]
  exact hs.bind_itemAt_eq (fun _ _ _ => rfl) (nodup_place h) p

/-- When all leaves set the same value, this is the value of the last. -/
theorem lastSet_of_forall {value : Leaf → Option β} {v : Option β} {ls : List Leaf}
    (hne : ls ≠ []) (h : ∀ l ∈ ls, value l = v) : Compile.lastSet value ls = v := by
  -- once the value is set, setting it again changes nothing
  have hfold : ∀ (ls : List Leaf) (earlier : Option β), (∀ l ∈ ls, value l = v) →
      ls.foldl (fun earlier l => (value l).or earlier) (v.or earlier) = v.or earlier := by
    intro ls earlier
    induction ls with
    | nil => exact fun _ => rfl
    | cons l ls ih =>
      intro h
      rw [List.forall_mem_cons] at h
      rw [List.foldl_cons, h.1, ← Option.or_assoc, Option.or_self, ih h.2]
  cases ls with
  | nil => exact absurd rfl hne
  | cons l ls =>
    rw [List.forall_mem_cons] at h
    unfold Compile.lastSet
    rw [List.foldl_cons, h.1, hfold ls none h.2, Option.or_none]

end Kinds

/-! ### Jobs and plugins -/

section Lists

variable {β : Type} {items : Leaf → List β}

theorem getD_nonEmpty (xs : List β) : (nonEmpty xs).getD [] = xs := by
  cases xs <;> rfl

/-- A leaf that is dropped has nothing in any section that names repositories by key. -/
theorem Leaf.appears_of_not_anchored {l : Leaf} (h : l.anchored = false) (s : KeyedSection) :
    l.appears s = false := by
  rw [← Bool.not_eq_true, anchored_iff] at h
  exact Bool.eq_false_iff.2 fun hs => h ⟨s, hs⟩

/-- Items of which none are left survive when the others do. -/
theorem Survives.of_items {s : KeyedSection}
    (happears : ∀ l : Leaf, l.appears s = !(items l).isEmpty) (entry : List β → Option (List β))
    (hentry : entry [] = none)
    (hkept : ∀ l ∈ leaves, entry (items (Recover.leaf d l.org l.repo)) = entry (items l)) :
    Survives d (fun l => entry (items l)) leaves where
  kept l hl _ := hkept l hl
  dropped l _ hdropped := by
    -- a leaf is dropped for having no items here, among other things
    have hnone := Leaf.appears_of_not_anchored hdropped s
    rw [happears, Bool.not_eq_false', List.isEmpty_iff] at hnone
    rw [hnone, hentry]

/-- The jobs under a key are read back, be there a key or not. -/
theorem items_onto_jobSet? (jobs : Keyed (List Job)) (key : String) :
    ((onto (Recover.jobSet? jobs key) none).map (·.items)).getD [] = (jobs.get? key).getD [] := by
  rw [onto_none]
  unfold Recover.jobSet?
  cases jobs.get? key with
  | none => rfl
  | some items => cases items <;> rfl

/-- The jobs of a repository are found again. -/
theorem items_jobSet? {items : Leaf → List Job} (h : (leaves.map Leaf.key).Nodup) {l : Leaf}
    (hl : l ∈ leaves) :
    ((onto (Recover.jobSet? (Compile.joinedByKey items leaves) l.key) none).map (·.items)).getD [] =
      items l := by
  rw [items_onto_jobSet?, get?_joinedByKey h, itemAt_key h hl, Option.bind_some,
    getD_nonEmpty]

/-- A table of jobs stays the same when the jobs of a repository are read from it. -/
theorem joinedByKey_returned (h : (leaves.map Leaf.key).Nodup) {s : KeyedSection}
    {items : Leaf → List Job} (happears : ∀ l : Leaf, l.appears s = !(items l).isEmpty)
    (hread : ∀ l : Leaf, items (Recover.leaf (documents leaves) l.org l.repo) =
      ((onto (Recover.jobSet? (Compile.joinedByKey items leaves) l.key) none).map
        (·.items)).getD []) :
    Compile.joinedByKey items (returned (documents leaves) leaves) =
      Compile.joinedByKey items leaves := by
  have hs : Survives (documents leaves) (fun l => nonEmpty (items l)) leaves :=
    .of_items happears nonEmpty rfl fun l hl =>
      congrArg nonEmpty ((hread l).trans (items_jobSet? h hl))
  exact hs.map_eq h fun hls k => get?_joinedByKey hls items k

theorem presubmits_returned (h : (leaves.map Leaf.key).Nodup) :
    (documents (returned (documents leaves) leaves)).jobs.presubmits =
      (documents leaves).jobs.presubmits :=
  joinedByKey_returned (s := .presubmits) h (fun _ => rfl) fun _ => rfl

theorem postsubmits_returned (h : (leaves.map Leaf.key).Nodup) :
    (documents (returned (documents leaves) leaves)).jobs.postsubmits =
      (documents leaves).jobs.postsubmits :=
  joinedByKey_returned (s := .postsubmits) h (fun _ => rfl) fun _ => rfl

theorem itemsOf_listOf (xs : List β) : itemsOf (listOf xs) = xs := by
  cases xs <;> rfl

variable [BEq β]

/-- The plugins of a repository are found again, each of them once. No organisation adds to them. -/
theorem withOrgEntries_distinctByKey (items : Leaf → List β) (h : Recoverable leaves) {l : Leaf}
    (hl : l ∈ leaves) :
    itemsOf (onto (listOf (Recover.withOrgEntries (Compile.distinctByKey items leaves) l.key l.org))
      none) = appendMissing [] (items l) := by
  -- the plugins come under the key of the leaf, and nothing comes under its organisation
  have hkey : (Compile.distinctByKey items leaves).get? l.key =
      (nonEmpty (items l)).map (appendMissing []) := by
    rw [get?_distinctByKey h.nodup, itemAt_key h.nodup hl, Option.bind_some]
  have horg : (Compile.distinctByKey items leaves).get? l.org = none := by
    rw [get?_distinctByKey h.nodup, h.itemAt_org hl, Option.bind_none]
  rw [onto_none, itemsOf_listOf]
  unfold Recover.withOrgEntries
  rw [hkey, horg]
  cases items l <;> rfl

variable [LawfulBEq β]

/-- A list without repetitions has nothing to lose. -/
theorem appendMissing_appendMissing (xs : List β) :
    appendMissing [] (appendMissing [] xs) = appendMissing [] xs := by
  rw [appendMissing_eq_appendNew [] xs, appendMissing_eq_appendNew]
  refine appendNew_of_nodup ?_
  rw [List.nil_append, List.map_id]
  exact nodup_appendNew List.nodup_nil

theorem appendMissing_cons_ne_nil (x : β) (xs : List β) : appendMissing [] (x :: xs) ≠ [] := by
  rw [appendMissing_eq_appendNew]
  exact List.ne_nil_of_mem (mem_appendNew.2 (Or.inr List.mem_cons_self))

/-- The entries of a list without its repetitions are those of the list. -/
theorem nonEmpty_appendMissing (xs : List β) :
    (nonEmpty (appendMissing [] xs)).map (appendMissing []) =
      (nonEmpty xs).map (appendMissing []) := by
  cases xs with
  | nil => rfl
  | cons x xs =>
    -- without repetitions the list is still not empty, so an entry stays an entry
    have hne : (appendMissing [] (x :: xs)).isEmpty = false :=
      List.isEmpty_eq_false_iff.2 (appendMissing_cons_ne_nil x xs)
    unfold nonEmpty
    rw [hne, if_neg Bool.false_ne_true]
    exact congrArg some (appendMissing_appendMissing (x :: xs))

/-- A table of plugins stays the same when the plugins of a repository are read from it. -/
theorem distinctByKey_returned (h : Recoverable leaves) {s : KeyedSection} {items : Leaf → List β}
    (happears : ∀ l : Leaf, l.appears s = !(items l).isEmpty)
    (hread : ∀ l : Leaf, items (Recover.leaf (documents leaves) l.org l.repo) =
      itemsOf (onto (listOf (Recover.withOrgEntries (Compile.distinctByKey items leaves)
        l.key l.org)) none)) :
    Compile.distinctByKey items (returned (documents leaves) leaves) =
      Compile.distinctByKey items leaves := by
  let entry (xs : List β) := (nonEmpty xs).map (appendMissing [])
  have hkept : ∀ l ∈ leaves, items (Recover.leaf (documents leaves) l.org l.repo) =
      appendMissing [] (items l) := fun l hl =>
    (hread l).trans (withOrgEntries_distinctByKey items h hl)
  -- repetitions are gone after the first compilation, so the second finds none
  have hs : Survives (documents leaves) (fun l => entry (items l)) leaves :=
    .of_items happears entry rfl fun l hl =>
      (congrArg entry (hkept l hl)).trans (nonEmpty_appendMissing (items l))
  exact hs.map_eq h.nodup fun hls k => get?_distinctByKey hls items k

theorem plugins_returned (h : Recoverable leaves) :
    (documents (returned (documents leaves) leaves)).plugins.plugins =
      (documents leaves).plugins.plugins :=
  distinctByKey_returned h (s := .plugins) (fun _ => rfl) fun _ => rfl

theorem externalPlugins_returned (h : Recoverable leaves) :
    (documents (returned (documents leaves) leaves)).plugins.externalPlugins =
      (documents leaves).plugins.externalPlugins :=
  distinctByKey_returned h (s := .externalPlugins) (fun _ => rfl) fun _ => rfl

end Lists

/-! ### Entries with rules -/

/-- What a leaf that is dropped does not say. -/
theorem Recoverable.unlisted (h : Recoverable leaves) {l : Leaf} (hl : l ∈ leaves)
    (hdropped : l.anchored = false) :
    l.fragment.approve = none ∧ l.fragment.lgtm = none ∧ l.fragment.trigger = none ∧
      itemsOf l.fragment.welcome = [] ∧ (l.fragment.merger.bind (·.queries)).getD [] = [] := by
  -- a leaf that is listed has a key somewhere, so it would have been kept
  have hunlisted : l.listed = false := by
    rw [← Bool.not_eq_true]
    intro hlisted
    rw [h.listed l hl hlisted] at hdropped
    cases hdropped
  unfold Leaf.listed at hunlisted
  simp only [Bool.or_eq_false_iff, Option.isSome_eq_false_iff, Option.isNone_iff_eq_none,
    Bool.not_eq_false', List.isEmpty_iff] at hunlisted
  obtain ⟨⟨⟨⟨happrove, hlgtm⟩, htrigger⟩, hwelcome⟩, hqueries⟩ := hunlisted
  exact ⟨happrove, hlgtm, htrigger, hwelcome, hqueries⟩

section Rules

variable {ε ρ : Type} {rules : Leaf → Option ρ} {entry : String → ρ → ε}

theorem contains_singleton (key k : String) : [key].contains k = (key == k) := by
  rw [List.contains_cons, List.contains_nil, Bool.or_false, Bool.beq_comm]

/-- The rules of a repository are found again. -/
theorem map_find?_entry [Onto ρ] (rules : Leaf → Option ρ) (entry : String → ρ → ε)
    (names : ε → String → Bool) (back : ε → ρ) (h : (leaves.map Leaf.key).Nodup) {l : Leaf}
    (hl : l ∈ leaves) (hnames : ∀ key r k, names (entry key r) k = (key == k))
    (hback : ∀ key r, back (entry key r) = r) :
    onto (((leaves.filterMap fun l => (rules l).map (entry l.key)).find? (names · l.key)).map back)
      none = rules l := by
  -- only the entry of the leaf names its key, and it holds the rules of the leaf
  rw [onto_none, find?_filterMap_key h hnames, itemAt_key h hl, Option.bind_some, Option.map_map]
  cases rules l with
  | none => rfl
  | some r => exact congrArg some (hback l.key r)

/-- The entries of leaves stay the same when the rules of a repository are read from its entry. -/
theorem entries_returned [Onto ρ] (rules : Leaf → Option ρ) (entry : String → ρ → ε)
    (names : ε → String → Bool) (back : ε → ρ) (h : Recoverable leaves)
    (hnames : ∀ key r k, names (entry key r) k = (key == k))
    (hback : ∀ key r, back (entry key r) = r)
    (hread : ∀ l : Leaf, rules (Recover.leaf (documents leaves) l.org l.repo) =
      onto (((leaves.filterMap fun l => (rules l).map (entry l.key)).find?
        (names · l.key)).map back) none)
    (hdropped : ∀ l ∈ leaves, l.anchored = false → rules l = none) :
    (returned (documents leaves) leaves).filterMap (fun l => (rules l).map (entry l.key)) =
      leaves.filterMap fun l => (rules l).map (entry l.key) := by
  have hs : Survives (documents leaves) (fun l => (rules l).map (entry l.key)) leaves := {
    kept := fun l hl _ => by
      -- a leaf that comes back has its key, and its rules are found under it
      change (rules (Recover.leaf (documents leaves) l.org l.repo)).map (entry l.key) = _
      rw [hread, map_find?_entry rules entry names back h.nodup hl hnames hback]
    dropped := fun l hl hnot => by rw [hdropped l hl hnot, Option.map_none] }
  exact hs.filterMap_eq

end Rules

theorem approve_returned (h : Recoverable leaves) :
    (documents (returned (documents leaves) leaves)).plugins.approve =
      (documents leaves).plugins.approve :=
  entries_returned (·.fragment.approve) ApproveEntry.ofRules ApproveEntry.names
    ApproveEntry.toRules h (fun key _ k => contains_singleton key k) (fun _ _ => rfl)
    (fun _ => rfl) fun _ hl hdropped => (h.unlisted hl hdropped).1

theorem lgtm_returned (h : Recoverable leaves) :
    (documents (returned (documents leaves) leaves)).plugins.lgtm =
      (documents leaves).plugins.lgtm :=
  entries_returned (·.fragment.lgtm) LgtmEntry.ofRules LgtmEntry.names
    LgtmEntry.toRules h (fun key _ k => contains_singleton key k) (fun _ _ => rfl)
    (fun _ => rfl) fun _ hl hdropped => (h.unlisted hl hdropped).2.1

theorem trigger_returned (h : Recoverable leaves) :
    (documents (returned (documents leaves) leaves)).plugins.triggers =
      (documents leaves).plugins.triggers :=
  entries_returned (·.fragment.trigger) TriggerEntry.ofRules TriggerEntry.names
    TriggerEntry.toRules h (fun key _ k => contains_singleton key k) (fun _ _ => rfl)
    (fun _ => rfl) fun _ hl hdropped => (h.unlisted hl hdropped).2.2.1

end SchedulerPolicy
