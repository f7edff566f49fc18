import Mathlib
import SchedulerPolicy.Command.Compilation
import SchedulerPolicy.Command.Import
import SchedulerPolicy.Proofs.Files.Runs
import SchedulerPolicy.Proofs.Steps

/-!
# Failures before and between writes

Compiling a directory reads and computes before it writes, so a failure that is not a failed write
leaves every file alone (`allOrNothing_generateFiles`). An import does the same up to its first
write. But the file of the environment is read after the resources are written: when it cannot be
read, the resources stay behind. That is the one exception (`run_eq_error_iff_of_not_write`), and
an import without an environment has none.
-/

namespace SchedulerPolicy

open RunT

variable {t t' : FileTree}

/-- A directory is compiled as a whole. -/
theorem allOrNothing_generateFiles (e : EffectiveSettings) :
    AllOrNothing (generateFiles e : RunT (StateM FileTree) Report) := by
  -- all that can fail besides the writes comes before them
  refine (reads_loadResources _).bind_allOrNothing fun resources => ?_
  refine (reads_ofExcept _).bind_allOrNothing fun compilation => ?_
  exact ((failsByWriting_writeFiles _).bind fun _ => failsByWriting_pure _).allOrNothing

/-! ### Imports -/

namespace ImportPaths

/-- What an import reads before it writes. -/
def readDocuments (paths : ImportPaths) : RunT (StateM FileTree) Recovered := do
  let jobs : JobDocument ← RunT.readDocument paths.jobs
  let plugins : PluginDocument ← RunT.readDocument paths.plugins
  RunT.ofExcept ((recover { jobs, plugins }).mapError .malformedKey)

/-- What comes of the two documents in a tree. -/
def recoveredIn (paths : ImportPaths) (t : FileTree) : Except RunError Recovered := do
  let jobs : JobDocument ← documentIn paths.jobs (t.content paths.jobs)
  let plugins : PluginDocument ← documentIn paths.plugins (t.content paths.plugins)
  (recover { jobs, plugins }).mapError .malformedKey

/-- What an import writes. -/
def takeOver (paths : ImportPaths) (r : Recovered) : RunT (StateM FileTree) Recovered := do
  RunT.writeFiles (r.files paths.output)
  if let some path := paths.environment then
    pointEnvironment path r.defaultScheduler
  return r

theorem reads_readDocuments (paths : ImportPaths) :
    Reads paths.readDocuments paths.recoveredIn :=
  (reads_readDocument _).bind fun _ => (reads_readDocument _).bind fun _ => reads_ofExcept _

theorem importDocuments_eq (paths : ImportPaths) :
    importDocuments paths = paths.readDocuments >>= paths.takeOver := by
  unfold readDocuments
  simp only [bind_assoc]
  rfl

end ImportPaths

theorem run_pointEnvironment_eq_error_iff (path scheduler : String) {e : RunError}
    (hcause : ¬ e.OfWrite) :
    (pointEnvironment path scheduler : RunT (StateM FileTree) Unit).run.run t = (.error e, t') ↔
      (documentIn path (t.content path) : Except RunError Environment) = .error e ∧ t' = t := by
  unfold pointEnvironment
  rw [run_bind_eq_error_iff, reads_readDocument path t]
  constructor
  · -- the error is that of reading, because it is none of writing
    rintro (h | ⟨a, u, -, hwrite⟩)
    · exact ⟨(Prod.mk.inj h).1, (Prod.mk.inj h).2.symm⟩
    · exact absurd (failsByWriting_writeFile _ _ _ _ _ hwrite) hcause
  · rintro ⟨hread, rfl⟩
    exact Or.inl (Prod.ext hread rfl)

/-- Behind the documents, what fails is a write, or the environment is read in vain. -/
theorem ImportPaths.run_takeOver_eq_error_iff (paths : ImportPaths) (r : Recovered) {e : RunError}
    (hcause : ¬ e.OfWrite) :
    (paths.takeOver r).run.run t = (.error e, t') ↔
      ∃ path, paths.environment = some path ∧
        (RunT.writeFiles (r.files paths.output) : RunT (StateM FileTree) Unit).run.run t =
          (.ok (), t') ∧
        (documentIn path (t'.content path) : Except RunError Environment) = .error e := by
  -- the resources have been written, because the error is none of writing
  have hfiles : (RunT.writeFiles (r.files paths.output) : RunT (StateM FileTree) Unit).run.run t ≠
      (.error e, t') := fun h => hcause (failsByWriting_writeFiles _ _ _ _ h)
  unfold takeOver
  rw [run_bind_eq_error_iff, or_iff_right hfiles]
  cases paths.environment with
  | none =>
    -- after the resources there is nothing left to fail
    constructor
    · rintro ⟨-, u, -, hreturn⟩
      cases hreturn
    · rintro ⟨path, hpath, -⟩
      cases hpath
  | some path =>
    dsimp only
    constructor
    · -- the environment is looked for in the tree that has the resources in it
      rintro ⟨⟨⟩, u, hrun, hrest⟩
      rcases run_bind_eq_error_iff.1 hrest with hpoint | ⟨-, u', -, hreturn⟩
      · obtain ⟨hread, rfl⟩ := (run_pointEnvironment_eq_error_iff _ _ hcause).1 hpoint
        exact ⟨path, rfl, hrun, hread⟩
      · cases hreturn
    · rintro ⟨path', hpath, hrun, hread⟩
      obtain rfl := Option.some.inj hpath
      exact ⟨(), t', hrun, run_bind_of_error
        ((run_pointEnvironment_eq_error_iff _ _ hcause).2 ⟨hread, rfl⟩)⟩

/-- **Failures before and between writes.** A compilation that fails leaves every file as it was,
unless a write fails. An import that fails without a failed write either failed over its two
documents and leaves every file as it was, or the resources have all been written and what failed
is to read the environment. -/
theorem run_eq_error_iff_of_not_write (settings : EffectiveSettings) (paths : ImportPaths)
    {e : RunError} (hcause : ¬ e.OfWrite) :
    ((generateFiles settings : RunT (StateM FileTree) Report).run.run t = (.error e, t') →
      t' = t) ∧
    ((importDocuments paths : RunT (StateM FileTree) Recovered).run.run t = (.error e, t') ↔
      paths.recoveredIn t = .error e ∧ t' = t ∨
      ∃ r path, paths.recoveredIn t = .ok r ∧ paths.environment = some path ∧
        (RunT.writeFiles (r.files paths.output) : RunT (StateM FileTree) Unit).run.run t =
          (.ok (), t') ∧
        (documentIn path (t'.content path) : Except RunError Environment) = .error e) := by
  refine ⟨fun hrun => allOrNothing_generateFiles settings t e t' hrun hcause, ?_⟩
  rw [paths.importDocuments_eq, run_bind_eq_error_iff, paths.reads_readDocuments t]
  -- an import fails over its documents, or after them
  refine or_congr ?_ ?_
  · rw [Prod.mk.injEq, eq_comm (a := t)]
  · constructor
    · rintro ⟨r, u, hread, hrun⟩
      obtain ⟨hr, rfl⟩ := Prod.mk.inj hread
      obtain ⟨path, h⟩ := (paths.run_takeOver_eq_error_iff r hcause).1 hrun
      exact ⟨r, path, hr, h⟩
    · rintro ⟨r, path, hr, h⟩
      exact ⟨r, t, Prod.ext hr rfl, (paths.run_takeOver_eq_error_iff r hcause).2 ⟨path, h⟩⟩

/-! ### An import that stops half-way -/

namespace HalfImported

/-- An import with an environment. -/
def paths : ImportPaths where
  jobs := "config.yaml"
  plugins := "plugins.yaml"
  output := "out"
  environment := some "env.yaml"

/-- The documents hold nothing, and the file of the environment is not there. -/
def before : FileTree :=
  .directory [("config.yaml", .file "{}\n"), ("plugins.yaml", .file "{}\n")]

/-- There is a scheduler of the team even when the documents hold nothing. -/
def recovered : Recovered where
  schedulers := .ofList [("default", Recover.teamFragment {})]
  repositories := []
  defaultScheduler := "default"

/-- The tree with the file of the scheduler of the team. -/
def withTeam (contents : String) : FileTree := .directory [("config.yaml", .file "{}\n"),
  ("out", .directory [("schedulers", .directory [("default.yaml", .file contents)])]),
  ("plugins.yaml", .file "{}\n")]

theorem files_recovered : ∃ contents,
    recovered.files "out" = [("out/schedulers/default.yaml", contents)] := ⟨_, rfl⟩

theorem documents?_empty : Yaml.documents? "{}\n" = some [.map none none []] := by
  cbv

theorem documentIn_empty {α : Type} [Schema α] {x : α}
    (h : read (Yaml.Node.ofTree (.map none none [])) = .ok x) (path : String) :
    documentIn path (.text "{}\n") = .ok x := by
  have hread : Yaml.read? "{}\n" = some x := by
    unfold Yaml.read? Yaml.nodes?
    rw [documents?_empty]
    change (read (Yaml.Node.ofTree (.map none none []))).toOption = _
    rw [h]
    rfl
  unfold documentIn
  dsimp only
  rw [hread]

theorem recoveredIn_before : paths.recoveredIn before = .ok recovered := by
  have hjobs : (documentIn "config.yaml" (.text "{}\n") : Except RunError JobDocument) = .ok {} :=
    documentIn_empty rfl _
  have hplugins : (documentIn "plugins.yaml" (.text "{}\n") : Except RunError PluginDocument) =
      .ok {} := documentIn_empty rfl _
  exact bind_eq_of_ok hjobs (bind_eq_of_ok hplugins rfl)

theorem write?_before (contents : String) :
    before.write? "out/schedulers/default.yaml" contents = some (withTeam contents) := rfl

/-- The resources are written, and then there is no environment to read. -/
theorem exists_run_paths : ∃ contents,
    (RunT.writeFiles (recovered.files paths.output) : RunT (StateM FileTree) Unit).run.run before =
      (.ok (), withTeam contents) ∧
    (documentIn "env.yaml" ((withTeam contents).content "env.yaml") :
      Except RunError Environment) = .error (.file (.unreadable "env.yaml")) := by
  obtain ⟨contents, hfiles⟩ := files_recovered
  refine ⟨contents, ?_, rfl⟩
  change (RunT.writeFiles (recovered.files "out") : RunT (StateM FileTree) Unit).run.run before = _
  rw [hfiles]
  exact run_bind_of_ok (run_writeFile (write?_before contents))

theorem not_ofWrite_unreadable (path : String) :
    ¬ RunError.OfWrite (.file (.unreadable path)) := by
  rintro ⟨path', h⟩
  cases h

/-- The directory of resources is empty. -/
def resourceless : FileTree := .directory [("resources", ∅)]

def settings : EffectiveSettings where
  settings := { resourcesDir := "resources" }
  sources := []

theorem run_generateFiles : ∃ t',
    (generateFiles settings : RunT (StateM FileTree) Report).run.run resourceless =
      (.error (.resolve .noRepositories), t') := by
  have hload : (loadResources "resources" : RunT (StateM FileTree) ResourceSet).run.run
      resourceless = (.ok (.ofList []), resourceless) := run_loadResources rfl rfl
  have hempty : (ResourceSet.ofList []).repositories = [] := List.mergeSort_nil
  have hcompile : Compilation.ofResources settings (.ofList []) =
      .error (.resolve .noRepositories) := by
    unfold Compilation.ofResources
    rw [hempty]
    rfl
  refine ⟨resourceless, (run_bind_of_ok hload).trans ?_⟩
  rw [hcompile]
  rfl

/-- A compilation without resources changes nothing; an import without its environment does. -/
theorem run_eq_error_iff_of_not_write_half :
    ¬ RunError.OfWrite (.resolve .noRepositories) ∧
    (generateFiles settings : RunT (StateM FileTree) Report).run.run resourceless =
      (.error (.resolve .noRepositories), resourceless) ∧
    ¬ RunError.OfWrite (.file (.unreadable "env.yaml")) ∧
    paths.recoveredIn before = .ok recovered ∧ paths.environment = some "env.yaml" ∧
    ∃ contents, (importDocuments paths : RunT (StateM FileTree) Recovered).run.run before =
      (.error (.file (.unreadable "env.yaml")), withTeam contents) := by
  obtain ⟨contents, hrun, hread⟩ := exists_run_paths
  have hcause := not_ofWrite_unreadable "env.yaml"
  have hno : ¬ RunError.OfWrite (.resolve .noRepositories) := by
    rintro ⟨path, h⟩
    cases h
  obtain ⟨t', hgenerate⟩ := run_generateFiles
  have hsame : t' = resourceless :=
    (run_eq_error_iff_of_not_write settings paths hno).1 hgenerate
  refine ⟨hno, hsame ▸ hgenerate, hcause, recoveredIn_before, rfl, contents, ?_⟩
  exact (run_eq_error_iff_of_not_write settings paths hcause).2.2
    (Or.inr ⟨recovered, "env.yaml", recoveredIn_before, rfl, hrun, hread⟩)

/-- An import is not all or nothing. -/
theorem not_allOrNothing_importDocuments :
    ¬ ∀ paths, AllOrNothing (importDocuments paths : RunT (StateM FileTree) Recovered) := by
  intro h
  obtain ⟨contents, hfiles, hread⟩ := exists_run_paths
  have hcause := not_ofWrite_unreadable "env.yaml"
  have htake : (paths.takeOver recovered).run.run before =
      (.error (.file (.unreadable "env.yaml")), withTeam contents) :=
    (paths.run_takeOver_eq_error_iff recovered hcause).2 ⟨"env.yaml", rfl, hfiles, hread⟩
  have hdocuments : paths.readDocuments.run.run before = (.ok recovered, before) := by
    rw [paths.reads_readDocuments, recoveredIn_before]
  have hrun : (importDocuments paths : RunT (StateM FileTree) Recovered).run.run before =
      (.error (.file (.unreadable "env.yaml")), withTeam contents) := by
    rw [paths.importDocuments_eq, run_bind_of_ok hdocuments, htake]
  have hsame := h paths before _ _ hrun hcause
  -- the directory of the resources is there afterwards and was not before
  have hfind := congrArg (fun t => (t.find? "out").isSome) hsame
  cases hfind

end HalfImported

end SchedulerPolicy
