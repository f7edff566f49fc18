import Mathlib
import SchedulerPolicy.Command.Import
import SchedulerPolicy.Proofs.Files.Runs
import SchedulerPolicy.Proofs.Files.Writes
import SchedulerPolicy.Proofs.Schema.Environments
import SchedulerPolicy.Proofs.Yaml.Words

/-!
# Annotating an environment

The file of an environment is read, and written again with another default scheduler. It can be
written because it could be read (`exists_run_pointEnvironment`), and its value then has the default
scheduler and what is kept of an environment (`annotates_of_pointEnvironment`). A label of the
environment is not kept (`Labelled.label_lost`).
-/

namespace SchedulerPolicy

/-- An environment that can be read can be annotated. -/
theorem exists_run_pointEnvironment {t : FileTree} {path text scheduler : String} {e : Environment}
    (hcontent : t.content path = .text text) (hread : Yaml.read? text = some e) :
    ∃ t',
      (pointEnvironment path scheduler : RunT (StateM FileTree) Unit).run.run t = (.ok (), t') ∧
      t'.content path =
        .text (Yaml.print (write (Environment.withDefaultScheduler e scheduler))) := by
  obtain ⟨t', hwrite, hcontent'⟩ := FileTree.exists_write?_of_content hcontent
    (Yaml.print (write (Environment.withDefaultScheduler e scheduler)))
  -- reading leaves the tree alone, so the write finds what was read
  have hdocument : (RunT.documentIn path (t.content path) : Except RunError Environment) =
      .ok e := by
    rw [hcontent]
    unfold RunT.documentIn
    dsimp only
    rw [hread]
  have hrun := RunT.reads_readDocument (α := Environment) path t
  dsimp only at hrun
  rw [hdocument] at hrun
  exact ⟨t', (RunT.run_bind_of_ok hrun).trans (RunT.run_writeFile hwrite), hcontent'⟩

/-- A document that is read twice is one node. -/
theorem Yaml.exists_node {α : Type} [Schema α] {text : String} {v : Value} {a : α}
    (hvalue : values? text = some [v]) (hread : read? text = some a) :
    ∃ n : Node, n.toValue true = .ok v ∧ v.hasDistinctKeys = true ∧ read n = .ok a := by
  unfold values? at hvalue
  unfold read? at hread
  -- both readings start from the nodes of the text, of which there is one
  obtain ⟨nodes, hnodes, hvalue⟩ := Option.bind_eq_some_iff.1 hvalue
  rw [hnodes] at hread
  split at hread
  · next n hn =>
    obtain rfl := Option.some.inj hn
    rw [List.mapM_cons, List.mapM_nil] at hvalue
    obtain ⟨w, hw, hvalue⟩ := Option.bind_eq_some_iff.1 hvalue
    obtain rfl := List.cons.inj (Option.some.inj hvalue) |>.1
    obtain ⟨x, hx, hdistinct⟩ := bind_eq_ok_iff.1 (toOption_eq_some_iff.1 hw)
    -- a value is made of a node only if its keys are distinct
    split at hdistinct
    · next hkeys =>
      obtain rfl := Except.ok.inj hdistinct
      exact ⟨n, hx, hkeys, toOption_eq_some_iff.1 hread⟩
    · cases hdistinct
  · cases hread

/-- **Annotating an environment.** A file that can be read as an environment is rewritten. Its value
then has the default scheduler, and the other settings of the team are as they were. Of all else
that is no mapping, what is kept are the texts of the fields of an environment. Nothing else is in
the file, whatever was in it before. -/
theorem annotates_of_pointEnvironment {t : FileTree} {path text scheduler : String} {v : Value}
    {e : Environment} (hcontent : t.content path = .text text)
    (hvalue : Yaml.values? text = some [v]) (hread : Yaml.read? text = some e)
    (hkeys : ∀ p ∈ Environment.openMappings, ∀ x, v.at? p = some x → x.TextKeyed)
    (hyaml : Yaml.values? (Yaml.print (write (Environment.withDefaultScheduler e scheduler))) =
      some [write (Environment.withDefaultScheduler e scheduler)]) :
    ∃ t' text' w,
      (pointEnvironment path scheduler : RunT (StateM FileTree) Unit).run.run t = (.ok (), t') ∧
      t'.content path = .text text' ∧ Yaml.values? text' = some [w] ∧
      Environment.Annotates scheduler v w := by
  obtain ⟨t', hrun, hcontent'⟩ := exists_run_pointEnvironment hcontent hread
  obtain ⟨n, hv, hdistinct, he⟩ := Yaml.exists_node hvalue hread
  exact ⟨t', _, _, hrun, hcontent', hyaml,
    Environment.annotates_withDefaultScheduler hv he hdistinct hkeys scheduler⟩

/-! ### An environment with a label -/

namespace Labelled

open Yaml (word wordMap entryRows_word belowLine_word belowLine_map values?_print)

/-- The label of the environment is none of the fields that are read. -/
def textBefore : String :=
  "apiVersion: jenkins.io/v1\nkind: Environment\nmetadata:\n  name: dev\n" ++
    "spec:\n  label: Development\n  teamSettings:\n    dockerOrg: acme\n"

def textAfter : String :=
  "apiVersion: jenkins.io/v1\nkind: Environment\nmetadata:\n  name: dev\n" ++
    "spec:\n  source: \x7b\x7d\n  teamSettings:\n" ++
    "    defaultScheduler:\n      kind: Scheduler\n      name: default\n    dockerOrg: acme\n"

/-- An environment of this name. -/
def tree (spec : Yaml.Tree) : Yaml.Tree := wordMap [
  ("apiVersion", word "jenkins.io/v1"), ("kind", word "Environment"),
  ("metadata", wordMap [("name", word "dev")]), ("spec", spec)]

def treeBefore : Yaml.Tree := tree (wordMap [
  ("label", word "Development"), ("teamSettings", wordMap [("dockerOrg", word "acme")])])

def treeAfter : Yaml.Tree := tree (wordMap [
  ("source", wordMap []),
  ("teamSettings", wordMap [
    ("defaultScheduler", wordMap [("kind", word "Scheduler"), ("name", word "default")]),
    ("dockerOrg", word "acme")])])

def valueBefore : Value := .record [
  ("apiVersion", .string "jenkins.io/v1"), ("kind", .string "Environment"),
  ("metadata", .record [("name", .string "dev")]),
  ("spec", .record [
    ("label", .string "Development"), ("teamSettings", .record [("dockerOrg", .string "acme")])])]

def valueAfter : Value := .map [
  (.string "apiVersion", .string "jenkins.io/v1"), (.string "kind", .string "Environment"),
  (.string "metadata", .map [(.string "name", .string "dev")]),
  (.string "spec", .map [
    (.string "source", .map []),
    (.string "teamSettings", .map [
      (.string "defaultScheduler", .map [
        (.string "kind", .string "Scheduler"), (.string "name", .string "default")]),
      (.string "dockerOrg", .string "acme")])])]

def environment : Environment where
  apiVersion := "jenkins.io/v1"
  kind := "Environment"
  metadata := { name := "dev" }
  spec := { teamSettings := some { extra := .ofList [("dockerOrg", .string "acme")] } }

def files : FileTree := .directory [("env.yaml", .file textBefore)]

/-- The texts in the rewritten file. -/
def words : List String :=
  ["apiVersion", "jenkins.io/v1", "kind", "Environment", "metadata", "name", "dev", "spec",
    "source", "teamSettings", "defaultScheduler", "Scheduler", "default", "dockerOrg", "acme"]

theorem isWord_of_mem {s : String} (h : s ∈ words) : Yaml.IsWord s :=
  .of_mem (by decide) (by cbv) h

set_option maxRecDepth 2000 in
theorem documents?_before : Yaml.documents? textBefore = some [treeBefore] := by cbv

set_option maxRecDepth 2000 in
theorem documents?_after : Yaml.documents? textAfter = some [treeAfter] := by cbv

set_option maxRecDepth 2000 in
theorem print_after : Yaml.print valueAfter = textAfter := by
  change Yaml.joinRows 0 (Yaml.entryRows 0 _) = _
  simp (disch := exact isWord_of_mem (by decide)) only [entryRows_word, belowLine_word,
    belowLine_map]
  rfl

theorem values?_before : Yaml.values? textBefore = some [valueBefore] :=
  Yaml.values?_of_tree documents?_before rfl

theorem read?_before : Yaml.read? textBefore = some environment := by
  unfold Yaml.read? Yaml.nodes?
  rw [documents?_before]
  rfl

theorem textKeyed_record (es : List (String × Value)) : (Value.record es).TextKeyed := ⟨es, rfl⟩

/-- The one mapping of any keys is that of the settings of the team. -/
theorem textKeyed_before : ∀ p ∈ Environment.openMappings, ∀ x,
    valueBefore.at? p = some x → x.TextKeyed := by
  simp only [Environment.openMappings, List.forall_mem_cons]
  -- only the settings of the team are there to be looked at
  refine ⟨?labels, ?annotations, ?settings, List.forall_mem_nil _⟩
  case labels =>
    intro x hx
    cases hx
  case annotations =>
    intro x hx
    cases hx
  case settings =>
    intro x hx
    obtain rfl := Option.some.inj hx
    exact textKeyed_record _

theorem values?_print_after :
    Yaml.values? (Yaml.print (write (environment.withDefaultScheduler "default"))) =
      some [write (environment.withDefaultScheduler "default")] :=
  values?_print (v := valueAfter) print_after documents?_after rfl

/-- The settings of the team have the default scheduler and what they had before. -/
theorem annotates_of_pointEnvironment_labelled :
    files.content "env.yaml" = .text textBefore ∧ Yaml.values? textBefore = some [valueBefore] ∧
    Yaml.read? textBefore = some environment ∧
    (∀ p ∈ Environment.openMappings, ∀ x, valueBefore.at? p = some x → x.TextKeyed) ∧
    Yaml.values? (Yaml.print (write (environment.withDefaultScheduler "default"))) =
      some [write (environment.withDefaultScheduler "default")] ∧
    ∃ t' text' w,
      (pointEnvironment "env.yaml" "default" : RunT (StateM FileTree) Unit).run.run files =
        (.ok (), t') ∧
      t'.content "env.yaml" = .text text' ∧ Yaml.values? text' = some [w] ∧
      Environment.Annotates "default" valueBefore w ∧
      w.at? ["spec", "teamSettings", "dockerOrg"] = some (.string "acme") := by
  have hcontent : files.content "env.yaml" = .text textBefore := rfl
  obtain ⟨t', text', w, hrun, htext, hw, hannotates⟩ := annotates_of_pointEnvironment hcontent
    values?_before read?_before textKeyed_before values?_print_after
  exact ⟨hcontent, values?_before, read?_before, textKeyed_before, values?_print_after, t', text',
    w, hrun, htext, hw, hannotates, hannotates.settings "dockerOrg" [] _ (by decide) rfl⟩

/-- The label is lost. -/
theorem label_lost :
    Yaml.values? textBefore = some [valueBefore] ∧ Yaml.read? textBefore = some environment ∧
    valueBefore.at? ["spec", "label"] = some (.string "Development") ∧
    ∃ t' text' w,
      (pointEnvironment "env.yaml" "default" : RunT (StateM FileTree) Unit).run.run files =
        (.ok (), t') ∧
      t'.content "env.yaml" = .text text' ∧ Yaml.values? text' = some [w] ∧
      w.at? ["spec", "label"] = none := by
  have hcontent : files.content "env.yaml" = .text textBefore := rfl
  obtain ⟨t', hrun, hcontent'⟩ := exists_run_pointEnvironment hcontent read?_before
  exact ⟨values?_before, read?_before, rfl, t', _, _, hrun, hcontent', values?_print_after, rfl⟩

end Labelled

end SchedulerPolicy
