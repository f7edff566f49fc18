import SchedulerPolicy.Proofs.Documents.MergeQueue
import SchedulerPolicy.Proofs.Documents.Protection
import SchedulerPolicy.Proofs.Documents.Shared

/-!
# Documents that are taken apart

Compiling leaves, recovering schedulers and repositories from the documents, generating leaves from
these and compiling again: whatever happens to the leaves on the way, the documents are the same
(`compile_recover_generate`). It takes leaves that the documents can tell apart and of which they
lose nothing that is written down (`Recoverable`).

The way there has been cleared section by section. What is left is to see that the leaves generated
from the documents are those that the sections were followed for (`generate_documents`).
-/

namespace SchedulerPolicy

variable {leaves : List Leaf}

attribute [ext] Documents JobDocument PluginDocument

/-! ### The documents of the leaves that come back -/

/-- **The leaves that come back have the documents that they came from.** -/
theorem documents_returned (h : Recoverable leaves) :
    documents (returned (documents leaves) leaves) = documents leaves := by
  refine Documents.ext (JobDocument.ext ?presubmits ?postsubmits ?periodics ?protection ?keeper
    ?plank) (PluginDocument.ext ?plugins ?external ?approve ?lgtm ?triggers ?welcome ?files)
  case presubmits => exact presubmits_returned h.nodup
  case postsubmits => exact postsubmits_returned h.nodup
  case periodics => exact periodics_returned h
  case protection => exact protection_returned h
  case keeper => exact keeper_returned h
  case plank => exact congrArg Plank.mk (reportTemplates_returned h)
  case plugins => exact plugins_returned h
  case external => exact externalPlugins_returned h
  case approve => exact approve_returned h
  case lgtm => exact lgtm_returned h
  case triggers => exact trigger_returned h
  case welcome => exact welcome_returned h
  case files => exact congrArg PublishedTable.mk (published_returned h)

/-! ### The way there and back -/

theorem Recoverable.compile_eq_ok (h : Recoverable leaves) :
    compile leaves = .ok (documents leaves) :=
  SchedulerPolicy.compile_eq_ok fun l hl => ⟨(h.named l hl).1, (h.named l hl).2.1⟩

theorem Recoverable.compile_returned (h : Recoverable leaves) (d : Documents) :
    compile (returned d leaves) = .ok (documents (returned d leaves)) :=
  SchedulerPolicy.compile_eq_ok (forall_mem_restored fun l hl _ =>
    ⟨(h.named l hl).1, (h.named l hl).2.1⟩)

/-- What is recovered from the documents of leaves, and what is generated from that. -/
theorem generate_documents (h : Recoverable leaves) :
    ∃ r, recover (documents leaves) = .ok r ∧ ∀ bootstrap,
      generate r.repositories [] r.schedulerResources r.environment bootstrap =
        .ok (returned (documents leaves) leaves) := by
  obtain ⟨found, hfound, hentries⟩ := repositories_documents h.ascending h.named
  -- what is recovered for a place is what came back of the leaf that was there
  have hleaves : (found.entries.map fun e => Recover.leaf (documents leaves) e.2.1 e.2.2) =
      returned (documents leaves) leaves := by
    rw [hentries, List.map_map]
    rfl
  -- the documents name some repository, without which nothing would be generated
  have hne : found.entries ≠ [] := by
    intro hnil
    rw [hnil] at hleaves
    exact h.returned_ne_nil (documents leaves) hleaves.symm
  obtain ⟨r, hrecover, hgenerate⟩ := generate_recovered hfound hne
  exact ⟨r, hrecover, fun bootstrap => by rw [hgenerate, hleaves]⟩

/-- **Documents that are taken apart can be put together again.** Leaves are compiled; schedulers
and repositories are recovered from the documents; leaves are generated from these, without groups
and with the recovered default scheduler. All of it succeeds, and the leaves that are generated have
the very documents that the first ones had. -/
theorem compile_recover_generate (h : Recoverable leaves) :
    ∃ d r generated, compile leaves = .ok d ∧ recover d = .ok r ∧
      (∀ bootstrap, generate r.repositories [] r.schedulerResources
        (some (Environment.dev none (some r.defaultScheduler))) bootstrap = .ok generated) ∧
      compile generated = .ok d := by
  obtain ⟨r, hrecover, hgenerate⟩ := generate_documents h
  refine ⟨documents leaves, r, returned (documents leaves) leaves, h.compile_eq_ok, hrecover,
    hgenerate, ?_⟩
  rw [h.compile_returned, documents_returned h]

/-! ### Three repositories -/

namespace Depot

/-- A query that two repositories have in common. -/
def approved : Query := { labels := ["approved"] }

/-- A repository with the files, a repository beside it, and one without a place of its own. -/
def team : List Leaf := [
  { org := "acme"
    repo := "depot"
    fragment := {
      presubmits := some { items := [{ name := "lint" }, { name := "build" }] }
      plugins := some { items := ["trigger", configUpdaterPlugin, "trigger"] }
      configUpdater := some { map := some (.ofList [("config.yaml", { name := "config" })]) }
      approve := some { issueRequired := some true }
      merger := some { queries := some [approved], mergeMethod := some "squash" } } },
  { org := "acme"
    repo := "shop"
    fragment := {
      plugins := some { items := ["trigger"] }
      welcome := some { items := [{ messageTemplate := "hello" }] }
      merger := some { queries := some [{ labels := ["urgent"] }, approved] } } },
  { org := "labs"
    repo := "idle"
    fragment := { periodics := some { items := [{ name := "nightly" }] } } }]

end Depot

theorem compile_recover_generate_of_depot :
    Recoverable Depot.team ∧
      ∃ d r generated, compile Depot.team = .ok d ∧ recover d = .ok r ∧
        (∀ bootstrap, generate r.repositories [] r.schedulerResources
          (some (Environment.dev none (some r.defaultScheduler))) bootstrap = .ok generated) ∧
        compile generated = .ok d := by
  have hrecoverable : Recoverable Depot.team := {
    ascending := by decide
    named := by decide
    apart := by decide
    listed := by decide
    inhabited := ⟨_, List.mem_cons_self, by decide⟩
    published := fun _ => ⟨_, List.mem_cons_self, by decide⟩ }
  exact ⟨hrecoverable, compile_recover_generate hrecoverable⟩

end SchedulerPolicy
