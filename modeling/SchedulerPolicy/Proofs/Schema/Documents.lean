import SchedulerPolicy.Document.Jobs
import SchedulerPolicy.Document.Plugins
import SchedulerPolicy.Proofs.Schema.Protection

/-!
# Reading undoes writing

The shapes of the two documents complete the schema, and with them every type of it comes back
(`read_write_of_read`). In the documents whole sections are left out under a condition of their own;
that condition holds of the section that says nothing, and of no other.
-/

namespace SchedulerPolicy

/-! ### Sections that are left out -/

theorem ProtectionTree.isEmpty_iff {t : ProtectionTree} : t.isEmpty = true ↔ t = {} := by
  unfold isEmpty
  rw [Bool.and_eq_true, Bool.and_eq_true, Option.isNone_iff_eq_none, WireRules.isEmpty_iff,
    Keyed.isEmpty_iff_eq]
  constructor
  · -- the three parts of a tree are all that it has
    rintro ⟨⟨hprotect, hpolicy⟩, horgs⟩
    cases t
    cases hprotect
    cases hpolicy
    cases horgs
    rfl
  · rintro rfl
    exact ⟨⟨rfl, rfl⟩, rfl⟩

theorem ContextTree.isEmpty_iff {t : ContextTree} : t.isEmpty = true ↔ t = {} := beq_iff_eq

theorem Keeper.isEmpty_iff {k : Keeper} : k.isEmpty = true ↔ k = {} := beq_iff_eq

theorem Plank.isEmpty_iff {p : Plank} : p.isEmpty = true ↔ p = {} :=
  Keyed.isEmpty_iff_eq.trans ⟨congrArg Plank.mk, congrArg Plank.reportTemplates⟩

theorem PublishedTable.isEmpty_iff {t : PublishedTable} : t.isEmpty = true ↔ t = {} :=
  Keyed.isEmpty_iff_eq.trans ⟨congrArg PublishedTable.mk, congrArg PublishedTable.maps⟩

/-! ### The job document -/

instance : Settles RepoContexts := Shape.settles {
  fields := [.listUnlessEmpty String "required-contexts",
    .listUnlessEmpty String "optional-contexts",
    .listUnlessEmpty String "required-if-present-contexts",
    .optional Bool "skip-unknown-contexts", .optional Bool "from-branch-protection"]
  make := RepoContexts.mk }

instance : Settles OrgContexts := Shape.settles {
  fields := [.mapUnlessEmpty RepoContexts "repos"]
  make := OrgContexts.mk }

instance : Settles ContextTree := Shape.settles {
  fields := [.optional Bool "from-branch-protection", .optional Bool "skip-unknown-contexts",
    .mapUnlessEmpty OrgContexts "orgs"]
  make := ContextTree.mk }

instance : Settles Keeper := Shape.settles {
  fields := [.listUnlessEmpty Query "queries", .mapUnlessEmpty String "merge_method",
    .optional String "sync_period", .optional String "status_update_period",
    .optional String "target_url", .optional String "pr_status_base_url",
    .optional String "blocker_label", .optional String "squash_label",
    .optional UInt32 "max_goroutines",
    .unlessDefault ContextTree "context_options" {} ContextTree.isEmpty ContextTree.isEmpty_iff]
  make := Keeper.mk }

instance : Settles Plank := Shape.settles {
  fields := [.mapUnlessEmpty String "report_templates"]
  make := Plank.mk }

instance : Settles JobDocument := Shape.settles {
  fields := [.mapUnlessEmpty (List Job) "presubmits", .mapUnlessEmpty (List Job) "postsubmits",
    .listUnlessEmpty Job "periodics",
    .unlessDefault ProtectionTree "branch-protection" {} ProtectionTree.isEmpty
      ProtectionTree.isEmpty_iff,
    .unlessDefault Keeper "keeper" {} Keeper.isEmpty Keeper.isEmpty_iff,
    .unlessDefault Plank "plank" {} Plank.isEmpty Plank.isEmpty_iff]
  make := JobDocument.mk }

/-! ### The plugin document -/

instance : Settles ApproveEntry := Shape.settles {
  fields := [.list String "repos", .optional Bool "issue_required",
    .optional Bool "require_self_approval", .optional Bool "lgtm_acts_as_approve",
    .optional Bool "ignore_review_state"]
  make := ApproveEntry.mk }

instance : Settles LgtmEntry := Shape.settles {
  fields := [.list String "repos", .optional Bool "review_acts_as_lgtm",
    .optional Bool "store_tree_hash", .optional String "trusted_team_for_sticky_lgtm"]
  make := LgtmEntry.mk }

instance : Settles TriggerEntry := Shape.settles {
  fields := [.list String "repos", .optional String "trusted_org", .optional String "join_org_url",
    .optional Bool "only_org_members", .optional Bool "ignore_ok_to_test"]
  make := TriggerEntry.mk }

instance : Settles WelcomeEntry := Shape.settles {
  fields := [.list String "repos", .required String "message_template"]
  make := WelcomeEntry.mk }

instance : Settles PublishedTable := Shape.settles {
  fields := [.mapUnlessEmpty ConfigMapTarget "maps"]
  make := PublishedTable.mk }

instance : Settles PluginDocument := Shape.settles {
  fields := [.mapUnlessEmpty (List String) "plugins",
    .mapUnlessEmpty (List ExternalPlugin) "external_plugins",
    .listUnlessEmpty ApproveEntry "approve", .listUnlessEmpty LgtmEntry "lgtm",
    .listUnlessEmpty TriggerEntry "triggers", .listUnlessEmpty WelcomeEntry "welcome",
    .unlessDefault PublishedTable "config_updater" {} PublishedTable.isEmpty
      PublishedTable.isEmpty_iff]
  make := PluginDocument.mk }

/-! ### The whole schema -/

/-- **Reading undoes writing.** Whatever a value is read as, over the whole schema, what is written
of it is read as the same again, so what was there but empty is still there. The keys of a job and
of a team's settings that are no fields are written with the values that they had, null included,
and a section that is left out says nothing. -/
theorem read_write_of_read :
    (∀ (x : Value) (f : Fragment), read x = .ok f → read (write f) = .ok f) ∧
    (∀ (x : Value) (j : Job), read x = .ok j → read (write j) = .ok j) ∧
    (∀ (x : Value) (d : JobDocument), read x = .ok d → read (write d) = .ok d) ∧
    (∀ (x : Value) (d : PluginDocument), read x = .ok d → read (write d) = .ok d) ∧
    (∀ (x : Value) (s : Scheduler), read x = .ok s → read (write s) = .ok s) ∧
    (∀ (x : Value) (r : SourceRepository), read x = .ok r → read (write r) = .ok r) ∧
    (∀ (x : Value) (g : SourceRepositoryGroup), read x = .ok g → read (write g) = .ok g) ∧
    (∀ (x : Value) (e : Environment), read x = .ok e → read (write e) = .ok e) ∧
    (∀ (x : Value) (j : Job), read x = .ok j → ∃ es, Readable.entries Job.fieldNames x = .ok es ∧
      ∀ key ∉ Job.fieldNames, (write j).get? key = es.reverse.lookup key) ∧
    (∀ (x : Value) (s : TeamSettings), read x = .ok s →
      ∃ es, Readable.entries TeamSettings.fieldNames x = .ok es ∧
        ∀ key ∉ TeamSettings.fieldNames, (write s).get? key = es.reverse.lookup key) ∧
    (∀ t : ProtectionTree, t.isEmpty = true → t = {}) ∧
    (∀ k : Keeper, k.isEmpty = true → k = {}) ∧
    (∀ t : ContextTree, t.isEmpty = true → t = {}) ∧
    (∀ p : Plank, p.isEmpty = true → p = {}) ∧
    (∀ t : PublishedTable, t.isEmpty = true → t = {}) := by
  refine ⟨?fragment, ?job, ?jobs, ?plugins, ?scheduler, ?repository, ?group, ?environment,
    ?jobKeys, ?teamKeys, ?tree, ?keeper, ?contexts, ?plank, ?published⟩
  -- every type settles, and where unknown keys are kept they are found again
  case fragment => exact fun x f h => read_write_of_settles h
  case job => exact fun x j h => read_write_of_settles h
  case jobs => exact fun x d h => read_write_of_settles h
  case plugins => exact fun x d h => read_write_of_settles h
  case scheduler => exact fun x s h => read_write_of_settles h
  case repository => exact fun x r h => read_write_of_settles h
  case group => exact fun x g h => read_write_of_settles h
  case environment => exact fun x e h => read_write_of_settles h
  case jobKeys => exact fun x j h => Job.shape.get?_write_of_read h
  case teamKeys => exact fun x s h => TeamSettings.shape.get?_write_of_read h
  case tree => exact fun t => ProtectionTree.isEmpty_iff.1
  case keeper => exact fun k => Keeper.isEmpty_iff.1
  case contexts => exact fun t => ContextTree.isEmpty_iff.1
  case plank => exact fun p => Plank.isEmpty_iff.1
  case published => exact fun t => PublishedTable.isEmpty_iff.1

namespace Sparse

/-- A job with a key that is no field, and null under it. -/
def jobValue : Value :=
  .record [("cluster", .null), ("name", .string "unit"), ("branches", .seq [])]

def job : Job where
  name := "unit"
  extra := .ofList [("cluster", .null)]

/-- Much is there but empty. -/
def fragmentValue : Value := .record [
  ("trigger", .null),
  ("plugins", .record []),
  ("policy", .record [("branches", .record [("main", .record [])])]),
  ("presubmits", .record [("items", .seq [jobValue])])]

def fragment : Fragment where
  policy := some { branches := some (.ofList [("main", {})]) }
  presubmits := some { items := [job] }
  plugins := some { items := [] }

/-- An organisation and a branch that nothing is said of. -/
def documentValue : Value := .record [
  ("keeper", .record []),
  ("branch-protection", .record [("orgs", .record [
    ("depot", .record []),
    ("acme", .record [("enforce_admins", .bool true), ("repos", .record [
      ("site", .record [("branches", .record [("main", .record [])])])])])])])]

def document : JobDocument where
  branchProtection.orgs := .ofList [
    ("acme", {
      policy := { enforceAdmins := some true }
      repos := .ofList [("site", { branches := .ofList [("main", {})] })] }),
    ("depot", {})]

theorem read_write_of_read_sparse :
    read (write fragment) = .ok fragment ∧ read (write document) = .ok document ∧
      (write job).get? "cluster" = some .null := by
  obtain ⟨hfragment, -, hdocument, -, -, -, -, -, hkeys, -⟩ := read_write_of_read
  refine ⟨hfragment fragmentValue fragment rfl, hdocument documentValue document rfl, ?_⟩
  -- the key is looked up among the entries of the value that was read
  obtain ⟨es, hes, hlookup⟩ := hkeys jobValue job rfl
  have hentries :
      [("cluster", .null), ("name", .string "unit"), ("branches", .seq [])] = es :=
    Except.ok.inj hes
  have hcluster := hlookup "cluster" (by decide)
  rw [← hentries] at hcluster
  exact hcluster

end Sparse

end SchedulerPolicy
