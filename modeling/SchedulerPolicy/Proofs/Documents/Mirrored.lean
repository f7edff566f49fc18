import SchedulerPolicy.Proofs.Documents.Shared
import SchedulerPolicy.Proofs.Resolution.Injection

/-!
# Files of the boot repository

The boot repository publishes the two compiled documents as config maps, whatever its schedulers
say: its leaf has the injection on top, and of a path the highest fragment decides.

The plugin document has one table of published files for all repositories, and there the first leaf
that publishes a path decides. So the document sends the two paths where the injection does, unless
a leaf in front of the boot repository's publishes one of them as well (`get?_maps_of_isBoot`).
That a scheduler of the team may do so is seen from two repositories (`Overtaken.config_elsewhere`).
-/

namespace SchedulerPolicy

/-! ### The published files -/

/-- A path is published by a leaf, and by the document as the first leaf of those in front and the
leaf itself has it. -/
structure Published (before : List Leaf) (own : Leaf) (maps : Keyed ConfigMapTarget) (path : String)
    (target : ConfigMapTarget) : Prop where
  ofLeaf : own.publishedFiles.lookup path = some target
  inDocument : maps.get? path =
    some ((before.findSome? fun l => l.publishedFiles.lookup path).getD target)

theorem Leaf.lookup_publishedFiles (l : Leaf) (path : String) :
    l.publishedFiles.lookup path = Fragment.MapField.files.value? path l.fragment := by
  unfold Leaf.publishedFiles
  change _ = (l.fragment.configUpdater.bind PublishedFiles.map).bind (·.get? path)
  cases l.fragment.configUpdater.bind PublishedFiles.map <;> rfl

theorem published_of_lookup {before after : List Leaf} {own : Leaf} {path : String}
    {target : ConfigMapTarget} (h : own.publishedFiles.lookup path = some target) :
    Published before own (Compile.published (before ++ own :: after)) path target where
  ofLeaf := h
  inDocument := by
    -- the leaf publishes the path, so no leaf behind it is asked
    rw [get?_published, List.findSome?_append, List.findSome?_cons, h]
    cases before.findSome? fun l => l.publishedFiles.lookup path <;> rfl

theorem Bootstrap.get?_published_of_ne (b : Bootstrap) (h : b.configPath ≠ b.pluginsPath) :
    b.published.get? b.configPath =
        some { name := b.configMap, namespaceName := b.namespaceName } ∧
      b.published.get? b.pluginsPath =
        some { name := b.pluginsMap, namespaceName := b.namespaceName } := by
  rw [b.get?_published, b.get?_published, if_neg h, if_pos rfl, if_pos rfl]
  exact ⟨rfl, rfl⟩

/-- **Where the compiled documents are published.** The leaf of the boot repository sends both paths
to the config maps of the bootstrap. The plugin document does so too, except for a path that a leaf
in front of it in the order of keys publishes, which goes where the first such leaf sends it. -/
theorem get?_maps_of_isBoot {repositories : List SourceRepository}
    {groups : List SourceRepositoryGroup} {schedulers : List Scheduler}
    {environment : Option Environment} {bootstrap : Bootstrap} {leaves : List Leaf} {d : Documents}
    {s : SourceRepository} (hs : s ∈ repositories)
    (hboot : (Resolver.ofResources groups schedulers environment bootstrap).isBoot s = true)
    (hpaths : bootstrap.configPath ≠ bootstrap.pluginsPath)
    (hleaves : generate repositories groups schedulers environment bootstrap = .ok leaves)
    (hd : compile leaves = .ok d) :
    ∃ before own after, leaves = before ++ own :: after ∧ own.org = s.spec.org ∧
      own.repo = s.spec.repo ∧ (∀ l ∈ before, l.key ≤ own.key) ∧
      Published before own d.plugins.configUpdater.maps bootstrap.configPath
        { name := bootstrap.configMap, namespaceName := bootstrap.namespaceName } ∧
      Published before own d.plugins.configUpdater.maps bootstrap.pluginsPath
        { name := bootstrap.pluginsMap, namespaceName := bootstrap.namespaceName } := by
  obtain ⟨own, hown, horg, hrepo, lower, hfragment⟩ := exists_leaf_of_isBoot hs hboot hleaves
  obtain ⟨before, after, rfl⟩ := List.append_of_mem hown
  -- leaves are generated in the order of their keys
  have hbefore : ∀ l ∈ before, l.key ≤ own.key := fun l hl =>
    (List.pairwise_append.1 (pairwise_key_of_generate hleaves)).2.2 l hl own List.mem_cons_self
  -- of both paths the injection decides
  have hlookup : ∀ {path target}, bootstrap.published.get? path = some target →
      own.publishedFiles.lookup path = some target := by
    intro path target htarget
    rw [own.lookup_publishedFiles, hfragment]
    exact Fragment.MapField.files.value?_stack lower htarget
  obtain ⟨hconfig, hplugins⟩ := bootstrap.get?_published_of_ne hpaths
  obtain ⟨-, rfl⟩ := compile_eq_ok_iff.1 hd
  exact ⟨before, own, after, rfl, horg, hrepo, hbefore, published_of_lookup (hlookup hconfig),
    published_of_lookup (hlookup hplugins)⟩

namespace Overtaken

/-- The files of the team, one of which lies where the boot repository keeps the job document. -/
def team : Fragment := {
  configUpdater := some { map := some (.ofList [("config/config.yaml", { name := "other" })]) } }

def schedulers : List Scheduler := [.ofFragment "team" team]

def environment : Option Environment :=
  some (Environment.dev (some "https://git.example.com/acme/environment.git") (some "team"))

def boot : SourceRepository := .ofParts "environment" "acme" "environment" none

/-- The boot repository, behind another one in the order of keys. -/
def repositories : List SourceRepository := [.ofParts "depot" "acme" "depot" none, boot]

def leaves : List Leaf := [
  { org := "acme", repo := "depot", fragment := team },
  { org := "acme", repo := "environment", fragment := onto ({} : Bootstrap).fragment team }]

theorem isBoot_boot : (Resolver.ofResources [] schedulers environment {}).isBoot boot = true := by
  decide

theorem generate_repositories : generate repositories [] schedulers environment = .ok leaves := by
  have hleaves : repositories.mapM (Resolver.ofResources [] schedulers environment {}).leaf? =
      .ok (leaves.map some) := rfl
  have hsorted : leaves.Pairwise fun a b => a.key ≤ b.key := by decide
  exact generate_of_mapM (List.cons_ne_nil _ _) hleaves hsorted

theorem compile_leaves : compile leaves = .ok (documents leaves) := compile_eq_ok (by decide)

theorem get?_maps_of_boot :
    (boot ∈ repositories ∧
      (Resolver.ofResources [] schedulers environment {}).isBoot boot = true) ∧
    "config/config.yaml" ≠ "config/plugins.yaml" ∧
    generate repositories [] schedulers environment = .ok leaves ∧
    compile leaves = .ok (documents leaves) ∧
    ∃ before own after, leaves = before ++ own :: after ∧ own.org = "acme" ∧
      own.repo = "environment" ∧ (∀ l ∈ before, l.key ≤ own.key) ∧
      Published before own (documents leaves).plugins.configUpdater.maps "config/config.yaml"
        { name := "config" } ∧
      Published before own (documents leaves).plugins.configUpdater.maps "config/plugins.yaml"
        { name := "plugins" } := by
  have hmem : boot ∈ repositories := List.mem_cons_of_mem _ (List.mem_singleton_self boot)
  have hpaths : "config/config.yaml" ≠ "config/plugins.yaml" := by decide
  exact ⟨⟨hmem, isBoot_boot⟩, hpaths, generate_repositories, compile_leaves,
    get?_maps_of_isBoot hmem isBoot_boot hpaths generate_repositories compile_leaves⟩

/-- **A leaf in front decides where the job document goes.** The team publishes a file under its
path, and the other repository is looked at first. -/
theorem config_elsewhere :
    let bootstrap : Bootstrap := {}
    boot ∈ repositories ∧
      (Resolver.ofResources [] schedulers environment bootstrap).isBoot boot = true ∧
      bootstrap.configPath ≠ bootstrap.pluginsPath ∧
      ∃ leaves d, generate repositories [] schedulers environment bootstrap = .ok leaves ∧
        compile leaves = .ok d ∧
        d.plugins.configUpdater.maps.get? bootstrap.configPath = some { name := "other" } ∧
        d.plugins.configUpdater.maps.get? bootstrap.configPath ≠
          some { name := bootstrap.configMap, namespaceName := bootstrap.namespaceName } := by
  intro bootstrap
  have hget : (Compile.published leaves).get? bootstrap.configPath = some { name := "other" } := by
    decide
  refine ⟨List.mem_cons_of_mem _ (List.mem_singleton_self boot), isBoot_boot, by decide, leaves,
    documents leaves, generate_repositories, compile_leaves, hget, fun h => ?_⟩
  have hname := congrArg (Option.map ConfigMapTarget.name) (hget.symm.trans h)
  exact absurd (Option.some.inj hname) (by decide)

end Overtaken

end SchedulerPolicy
