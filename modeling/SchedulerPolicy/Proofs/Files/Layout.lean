import Mathlib
import SchedulerPolicy.Proofs.Files.Loading
import SchedulerPolicy.Proofs.Yaml.Words

/-!
# The layout of the files does not matter

Which documents lie in which file, and which file in which directory, is up to the team. What is
loaded is the same: the resources of all documents, sorted by name (`ofTree_of_perm`).

Three steps take the layout away. The files that are read are the YAML files of the tree, whatever
is hidden aside (`FileTree.yamlFiles_eq`). Loading succeeds when every document fits its type, and
then it finds the resources that the documents hold, file by file (`mapM_inFile`). And of resources
with different names there is one order (`ResourceSet.sortByName_of_perm`). What the lists of a set
have to do with the documents is the same for each of the four kinds, and is said once, of resources
of a kind (`TeamResource.OfKind`).
-/

namespace SchedulerPolicy

/-! ### Files -/

/-- The path of a place below a directory. -/
def Path.below (dir : String) (place : List String) : String := place.foldl Path.join dir

namespace FileTree

mutual

/-- All files of a tree, whether they can be read or not, with the names that lead to them. -/
def allFiles : FileTree → List (List String × FileContent)
  | .file contents => [([], .text contents)]
  | .unreadable => [([], .unreadable)]
  | .directory entries => entryAllFiles entries
termination_by structural t => t

/-- The files below the entries of a directory. -/
def entryAllFiles : List (String × FileTree) → List (List String × FileContent)
  | [] => []
  | (name, t) :: rest => (allFiles t).map (fun f => (name :: f.1, f.2)) ++ entryAllFiles rest
termination_by structural es => es

end

/-- Whether a file below a directory is a YAML file and neither hidden nor below anything hidden. -/
def isVisibleYaml (dir : String) (place : List String) : Bool :=
  !place.any Path.isHidden && Path.isYaml (Path.below dir place)

/-- The YAML files of a tree that stands at a path, hidden ones aside. -/
def visibleYaml (dir : String) (t : FileTree) : List (List String × FileContent) :=
  t.allFiles.filter fun f => isVisibleYaml dir f.1

theorem isVisibleYaml_cons (dir name : String) (place : List String) :
    isVisibleYaml dir (name :: place) =
      (!Path.isHidden name && isVisibleYaml (Path.join dir name) place) := by
  unfold isVisibleYaml
  rw [List.any_cons, Bool.not_or, Bool.and_assoc]
  rfl

theorem map_filter_singleton (dir : String) (content : FileContent) :
    (([([], content)] : List (List String × FileContent)).filter fun f =>
      isVisibleYaml dir f.1).map (fun f => (Path.below dir f.1, f.2)) =
        if Path.isYaml dir then [(dir, content)] else [] := by
  have hroot : isVisibleYaml dir [] = Path.isYaml dir := rfl
  rw [List.filter_singleton, hroot]
  cases Path.isYaml dir <;> rfl

mutual

/-- **The files that are loaded** are the visible YAML files, each of them once. -/
theorem yamlFiles_eq (dir : String) : (t : FileTree) →
    t.yamlFiles dir = (t.visibleYaml dir).map fun f => (Path.below dir f.1, f.2)
  | .file contents => (map_filter_singleton dir (.text contents)).symm
  | .unreadable => (map_filter_singleton dir .unreadable).symm
  | .directory entries => entryYamlFiles_eq dir entries

theorem entryYamlFiles_eq (dir : String) : (es : List (String × FileTree)) →
    entryYamlFiles dir es = ((entryAllFiles es).filter fun f => isVisibleYaml dir f.1).map
      fun f => (Path.below dir f.1, f.2)
  | [] => rfl
  | (name, t) :: rest => by
    have hfiles := yamlFiles_eq (Path.join dir name) t
    have hrest := entryYamlFiles_eq dir rest
    unfold entryYamlFiles entryAllFiles
    -- what is below the first name and what is in the other entries are filtered apart
    rw [hrest, List.filter_append, List.map_append, List.filter_map]
    congr 1
    simp only [Function.comp_def, isVisibleYaml_cons]
    cases Path.isHidden name with
    | true =>
      -- nothing is left of what is below the name
      simp only [Bool.not_true, Bool.false_and, List.filter_false, List.map_nil, if_true]
    | false =>
      simp only [Bool.not_false, Bool.true_and]
      rw [if_neg Bool.false_ne_true, hfiles, List.map_map]
      rfl

end

end FileTree

/-! ### Documents -/

/-- The documents of a file, when it is YAML. -/
def FileContent.documents? : FileContent → Option (List Value)
  | .text contents => Yaml.values? contents
  | _ => none

/-- The documents of all visible YAML files of a tree, when each of the files is YAML. -/
def FileTree.documents? (dir : String) (t : FileTree) : Option (List Value) :=
  (((t.visibleYaml dir).map Prod.snd).mapM FileContent.documents?).map List.flatten

namespace TeamResource

/-- The resource that a document holds, if it holds one and fits the type of its kind. -/
def held? (document : Value) : Option TeamResource := (ofDocument? document).toOption.join

end TeamResource

/-- No two of the resources in some documents have one kind and one name. -/
def DistinctResources (documents : List Value) : Prop :=
  documents.Pairwise fun d d' => ∀ x ∈ TeamResource.held? d, ∀ y ∈ TeamResource.held? d',
    x.kind = y.kind → x.name ≠ y.name

/-- A list has the resource of every document of a kind, each of them once, and no others. -/
def Lists {α : Type} [Schema α] (kind : Kind) (documents : List Value)
    (rs : List (Resource α)) : Prop :=
  ((documents.filter fun d => d.kind? == some kind.name).map
    fun d => (read d : Decoded (Resource α))).Perm (rs.map .ok)

/-- A set has the resources of some documents: those of each kind, and no others. -/
structure ResourceSet.Holds (set : ResourceSet) (documents : List Value) : Prop where
  schedulers : Lists .scheduler documents set.schedulers
  repositories : Lists .sourceRepository documents set.repositories
  groups : Lists .sourceRepositoryGroup documents set.groups
  environments : Lists .environment documents set.environments

/-! ### Kinds -/

namespace TeamResource

theorem held?_of_ok {d : Value} {x : Option TeamResource} (h : ofDocument? d = .ok x) :
    held? d = x := by
  unfold held?
  rw [h]
  rfl

section OfKind

variable {α : Type} [Schema α] {kind : Kind} {wrap : Resource α → TeamResource}
  {pick : TeamResource → Option (Resource α)} {documents : List Value}

/-- When every document fits its type, the documents of a kind are read as the resources of that
kind which they hold. -/
theorem OfKind.map_read (h : OfKind kind wrap pick)
    (hfits : ∀ d ∈ documents, ∃ x, ofDocument? d = .ok x) :
    (documents.filter fun d => d.kind? == some kind.name).map
        (fun d => (read d : Decoded (Resource α))) =
      ((documents.filterMap held?).filterMap pick).map .ok := by
  induction documents with
  | nil => rfl
  | cons d documents ih =>
    rw [List.forall_mem_cons] at hfits
    obtain ⟨⟨x, hx⟩, hrest⟩ := hfits
    have hrest := ih hrest
    by_cases hkind : d.kind? = some kind.name
    · -- the document is one of the kind, and reading it cannot fail
      rw [h.load d hkind] at hx
      obtain ⟨r, hr, rfl⟩ := map_eq_ok_iff.1 hx
      have hheld : held? d = some (wrap r) := held?_of_ok (by rw [h.load d hkind, hr]; rfl)
      have hpick : pick (wrap r) = some r := (h.pick_eq_some_iff _ _).2 rfl
      have hsays : (d.kind? == some kind.name) = true := beq_iff_eq.2 hkind
      rw [List.filter_cons, hsays, if_pos rfl, List.map_cons, hrest, hr,
        List.filterMap_cons_some hheld, List.filterMap_cons_some hpick, List.map_cons]
    · -- a resource of the kind would make the document one of the kind
      have hpick : ∀ y ∈ x, pick y = none := by
        intro y hy
        refine Option.eq_none_iff_forall_ne_some.2 fun r hr => hkind ?_
        rw [Option.mem_def.1 hy] at hx
        rw [kind?_of_ofDocument? hx, (h.pick_eq_some_iff y r).1 hr, h.kind_wrap]
      have hsays : (d.kind? == some kind.name) = false := beq_false_of_ne hkind
      rw [List.filter_cons, hsays, if_neg Bool.false_ne_true, hrest]
      cases x with
      | none => rw [List.filterMap_cons_none (held?_of_ok hx)]
      | some y =>
        rw [List.filterMap_cons_some (held?_of_ok hx), List.filterMap_cons_none (hpick y rfl)]

/-- Resources of one kind have different names when there are no two of one kind and one name. -/
theorem OfKind.nodup_names (h : OfKind kind wrap pick) (hdistinct : DistinctResources documents) :
    (((documents.filterMap held?).filterMap pick).map Resource.name).Nodup := by
  have hheld : (documents.filterMap held?).Pairwise fun x y => x.kind = y.kind → x.name ≠ y.name :=
    hdistinct.filterMap held? fun d d' hdd x hx y hy => hdd x hx y hy
  refine List.pairwise_map.2 (hheld.filterMap pick fun x y hxy r hr r' hr' => ?_)
  obtain rfl := (h.pick_eq_some_iff x r).1 hr
  obtain rfl := (h.pick_eq_some_iff y r').1 hr'
  have hname := hxy ((h.kind_wrap r).trans (h.kind_wrap r').symm)
  rwa [h.name_wrap, h.name_wrap] at hname

end OfKind

end TeamResource

/-! ### Sets -/

namespace ResourceSet

open TeamResource

variable {documents documents' : List Value}

/-- The set of what some documents hold does not depend on the order of the documents. -/
theorem ofList_of_perm (hdistinct : DistinctResources documents)
    (h : documents.Perm documents') :
    ofList (documents.filterMap held?) = ofList (documents'.filterMap held?) := by
  have hheld := h.filterMap held?
  unfold ofList
  -- names are distinct in each of the four lists, so sorting forgets the order
  rw [sortByName_of_perm (ofKind_scheduler.nodup_names hdistinct) (hheld.filterMap _),
    sortByName_of_perm (ofKind_repository.nodup_names hdistinct) (hheld.filterMap _),
    sortByName_of_perm (ofKind_group.nodup_names hdistinct) (hheld.filterMap _),
    sortByName_of_perm (ofKind_environment.nodup_names hdistinct) (hheld.filterMap _)]

theorem lists_sortByName {α : Type} [Schema α] {kind : Kind} {wrap : Resource α → TeamResource}
    {pick : TeamResource → Option (Resource α)} (h : OfKind kind wrap pick)
    (hfits : ∀ d ∈ documents, ∃ x, ofDocument? d = .ok x) :
    Lists kind documents (sortByName ((documents.filterMap held?).filterMap pick)) := by
  unfold Lists
  rw [h.map_read hfits]
  exact ((List.mergeSort_perm _ _).map _).symm

theorem holds_ofList (hfits : ∀ d ∈ documents, ∃ x, ofDocument? d = .ok x) :
    (ofList (documents.filterMap held?)).Holds documents where
  schedulers := lists_sortByName ofKind_scheduler hfits
  repositories := lists_sortByName ofKind_repository hfits
  groups := lists_sortByName ofKind_group hfits
  environments := lists_sortByName ofKind_environment hfits

end ResourceSet

/-! ### Loading -/

/-- A traversal that finds something finds it step by step. -/
theorem forall₂_of_mapM_eq_some {α β : Type} {f : α → Option β} {xs : List α} {ys : List β}
    (h : xs.mapM f = some ys) : List.Forall₂ (fun x y => f x = some y) xs ys := by
  induction xs generalizing ys with
  | nil =>
    obtain rfl : [] = ys := Option.some.inj h
    exact .nil
  | cons x xs ih =>
    rw [List.mapM_cons] at h
    obtain ⟨y, hy, hrest⟩ := Option.bind_eq_some_iff.1 h
    obtain ⟨zs, hzs, hys⟩ := Option.bind_eq_some_iff.1 hrest
    obtain rfl : y :: zs = ys := Option.some.inj hys
    exact .cons hy (ih hzs)

namespace ResourceSet

open TeamResource

variable {files : List (String × FileContent)} {parts : List (List Value)}

/-- A file of documents that fit their types has the resources that they hold. -/
theorem inFile_of_documents? {content : FileContent} {documents : List Value}
    (h : content.documents? = some documents)
    (hfits : ∀ d ∈ documents, ∃ x, ofDocument? d = .ok x) (path : String) :
    inFile path content = .ok (documents.filterMap held?) := by
  cases content with
  | absent => cases h
  | unreadable => cases h
  | text contents =>
    obtain ⟨held, hheld⟩ := exists_mapM_eq_ok_iff.2 hfits
    exact inFile_eq_ok_iff.2
      ⟨contents, documents, held, rfl, h, hheld, (filterMap_id_of_mapM hheld).symm⟩

/-- A file cannot be used when a document in it does not fit its type. -/
theorem inFile_of_error {content : FileContent} {documents : List Value}
    (h : content.documents? = some documents) {d : Value} (hd : d ∈ documents)
    (hx : ∀ x, ofDocument? d ≠ .ok x) (path : String) : ∃ e, inFile path content = .error e := by
  cases hfile : inFile path content with
  | error e => exact ⟨e, rfl⟩
  | ok found =>
    -- a file that was used would have had all its documents fit
    obtain ⟨contents, documents', held, rfl, hdocuments, hheld, -⟩ := inFile_eq_ok_iff.1 hfile
    obtain rfl : documents' = documents := Option.some.inj (hdocuments.symm.trans h)
    obtain ⟨x, hok⟩ := exists_mapM_eq_ok_iff.1 ⟨held, hheld⟩ d hd
    exact absurd hok (hx x)

variable (h : List.Forall₂ (fun f part => FileContent.documents? f.2 = some part) files parts)

include h

/-- Files are loaded when all their documents fit their types. -/
theorem mapM_inFile (hfits : ∀ d ∈ parts.flatten, ∃ x, ofDocument? d = .ok x) :
    (files.mapM fun f => inFile f.1 f.2) = .ok (parts.map (·.filterMap held?)) := by
  induction h with
  | nil => rfl
  | cons hpart _ ih =>
    rw [List.flatten_cons, List.forall_mem_append] at hfits
    rw [List.mapM_cons, inFile_of_documents? hpart hfits.1, ih hfits.2]
    rfl

/-- Files are not loaded when one of their documents does not fit its type. -/
theorem mapM_inFile_of_error {d : Value} (hd : d ∈ parts.flatten)
    (hx : ∀ x, ofDocument? d ≠ .ok x) : ∃ e, (files.mapM fun f => inFile f.1 f.2) = .error e := by
  -- the file that has the document in it
  obtain ⟨f, hf, part, hpart, hdpart⟩ : ∃ f ∈ files, ∃ part,
      f.2.documents? = some part ∧ d ∈ part := by
    induction h with
    | nil => cases hd
    | @cons f part _ _ hpart _ ih =>
      rw [List.flatten_cons, List.mem_append] at hd
      rcases hd with hd | hd
      · exact ⟨f, List.mem_cons_self, part, hpart, hd⟩
      · obtain ⟨g, hg, hrest⟩ := ih hd
        exact ⟨g, List.mem_cons_of_mem f hg, hrest⟩
  obtain ⟨e, he⟩ := inFile_of_error hpart hdpart hx f.1
  exact mapM_error_of_mem hf he

end ResourceSet

section Trees

open ResourceSet TeamResource

variable {t t' : FileTree} {dir dir' : String} {documents documents' : List Value}

/-- The documents of a tree are those of the files that are loaded. -/
theorem exists_parts (h : t.documents? dir = some documents) : ∃ parts : List (List Value),
    List.Forall₂ (fun f part => FileContent.documents? f.2 = some part) (t.yamlFiles dir) parts ∧
      documents = parts.flatten := by
  obtain ⟨parts, hparts, rfl⟩ := Option.map_eq_some_iff.1 h
  refine ⟨parts, ?_, rfl⟩
  -- the files that are loaded are the visible ones, whatever their paths
  rw [FileTree.yamlFiles_eq, List.forall₂_map_left_iff]
  exact List.forall₂_map_left_iff.1 (forall₂_of_mapM_eq_some hparts)

/-- **What is loaded from a tree whose files are YAML.** It is the set of what the documents hold,
when each of them fits the type of its kind. -/
theorem ofTree_of_documents? (h : t.documents? dir = some documents)
    (hfits : ∀ d ∈ documents, ∃ x, ofDocument? d = .ok x) :
    ofTree dir t = .ok (ofList (documents.filterMap held?)) := by
  obtain ⟨parts, hparts, rfl⟩ := exists_parts h
  unfold ofTree ofFiles
  rw [mapM_inFile hparts hfits, List.filterMap_flatten]
  rfl

theorem ofTree_of_error (h : t.documents? dir = some documents) {d : Value} (hd : d ∈ documents)
    (hx : ∀ x, ofDocument? d ≠ .ok x) : ∃ e, ofTree dir t = .error e := by
  obtain ⟨parts, hparts, rfl⟩ := exists_parts h
  obtain ⟨e, he⟩ := mapM_inFile_of_error hparts hd hx
  unfold ofTree ofFiles
  exact ⟨e, by rw [he]; rfl⟩

/-- **Loading does not depend on the layout of the files.** When the visible YAML files of two trees
have the same documents, in any order and in whatever files, and no two resources in them have one
kind and one name, then either a document does not fit the type of its kind and nothing is loaded
from either tree, or the same set is loaded from both, and it has exactly the resources of the
documents. -/
theorem ofTree_of_perm (h : t.documents? dir = some documents)
    (h' : t'.documents? dir' = some documents') (hperm : documents.Perm documents')
    (hdistinct : DistinctResources documents) :
    ((∃ d ∈ documents, ∃ e, ofDocument? d = .error e) ∧
      (∃ e, ofTree dir t = .error e) ∧ ∃ e, ofTree dir' t' = .error e) ∨
    ∃ set, ofTree dir t = .ok set ∧ ofTree dir' t' = .ok set ∧ set.Holds documents := by
  by_cases hfits : ∀ d ∈ documents, ∃ x, ofDocument? d = .ok x
  · have hfits' : ∀ d ∈ documents', ∃ x, ofDocument? d = .ok x :=
      fun d hd => hfits d (hperm.mem_iff.2 hd)
    refine Or.inr ⟨_, ofTree_of_documents? h hfits, ?_, holds_ofList hfits⟩
    rw [ofTree_of_documents? h' hfits', ofList_of_perm hdistinct hperm]
  · -- a document that does not fit is in a file of either tree
    obtain ⟨d, hd, hno⟩ : ∃ d ∈ documents, ∀ x, ofDocument? d ≠ .ok x := by
      simpa only [not_forall, not_exists, exists_prop] using hfits
    refine Or.inl ⟨⟨d, hd, ?_⟩, ofTree_of_error h hd hno,
      ofTree_of_error h' (hperm.mem_iff.1 hd) hno⟩
    cases hx : ofDocument? d with
    | error e => exact ⟨e, rfl⟩
    | ok x => exact absurd hx (hno x)

end Trees

/-! ### Two layouts -/

namespace Layouts

open Yaml (word wordMap)

/-- A document of an unknown kind. -/
def textNote : String := "kind: Note\n"

def textTeam : String :=
  "apiVersion: v1\nkind: Scheduler\nmetadata: \x7bname: team\x7d\nspec: \x7b\x7d\n"

def treeNote : Yaml.Tree := wordMap [("kind", word "Note")]

def treeTeam : Yaml.Tree := wordMap [
  ("apiVersion", word "v1"), ("kind", word "Scheduler"),
  ("metadata", wordMap [("name", word "team")]), ("spec", wordMap [])]

def note : Value := .record [("kind", .string "Note")]

def team : Value := .record [
  ("apiVersion", .string "v1"), ("kind", .string "Scheduler"),
  ("metadata", .record [("name", .string "team")]), ("spec", .record [])]

def scheduler : Scheduler where
  apiVersion := "v1"
  kind := Kind.scheduler.name
  metadata := { name := "team" }
  spec := ∅

/-- Both documents in one file, beside a hidden directory with a file that is no YAML. -/
def together : FileTree := .directory [
  (".git", .directory [("config.yaml", .file "\x7b")]),
  ("all.yaml", .file (textNote ++ "---\n" ++ textTeam))]

/-- One document a file, the scheduler first. -/
def apart : FileTree := .directory [
  ("more", .directory [("README.txt", .file "\x7b"), ("team.yaml", .file textTeam)]),
  ("note.yml", .file textNote)]

theorem documents?_note : Yaml.documents? textNote = some [treeNote] := by cbv

set_option maxRecDepth 2000 in
theorem documents?_team : Yaml.documents? textTeam = some [treeTeam] := by cbv

set_option maxRecDepth 2000 in
theorem documents?_both :
    Yaml.documents? (textNote ++ "---\n" ++ textTeam) = some [treeNote, treeTeam] := by cbv

theorem documents?_together : together.documents? "resources" = some [note, team] := by
  have hvisible : together.visibleYaml "resources" =
      [(["all.yaml"], .text (textNote ++ "---\n" ++ textTeam))] := rfl
  have hboth : FileContent.documents? (.text (textNote ++ "---\n" ++ textTeam)) =
      some [note, team] := by
    unfold FileContent.documents? Yaml.values? Yaml.nodes?
    dsimp only
    rw [documents?_both]
    rfl
  unfold FileTree.documents?
  rw [hvisible, List.map_singleton, List.mapM_cons, hboth]
  rfl

theorem documents?_apart : apart.documents? "config" = some [team, note] := by
  have hvisible : apart.visibleYaml "config" =
      [(["more", "team.yaml"], .text textTeam), (["note.yml"], .text textNote)] := rfl
  have hteam : FileContent.documents? (.text textTeam) = some [team] :=
    Yaml.values?_of_tree documents?_team rfl
  have hnote : FileContent.documents? (.text textNote) = some [note] :=
    Yaml.values?_of_tree documents?_note rfl
  unfold FileTree.documents?
  rw [hvisible, List.map_cons, List.map_singleton, List.mapM_cons, List.mapM_cons, hteam, hnote]
  rfl

theorem ofDocument?_note : TeamResource.ofDocument? note = .ok none := rfl

theorem ofDocument?_team : TeamResource.ofDocument? team = .ok (some (.scheduler scheduler)) := rfl

/-- From both trees the scheduler is loaded, and nothing else. -/
theorem ofTree_of_perm_layouts :
    together.documents? "resources" = some [note, team] ∧
    apart.documents? "config" = some [team, note] ∧ [note, team].Perm [team, note] ∧
    DistinctResources [note, team] ∧
    ∃ set, ResourceSet.ofTree "resources" together = .ok set ∧
      ResourceSet.ofTree "config" apart = .ok set ∧ set.Holds [note, team] := by
  have hperm : [note, team].Perm [team, note] := .swap _ _ _
  have hdistinct : DistinctResources [note, team] := by
    refine List.pairwise_pair.2 fun x hx => ?_
    rw [TeamResource.held?_of_ok ofDocument?_note] at hx
    cases hx
  refine ⟨documents?_together, documents?_apart, hperm, hdistinct, ?_⟩
  obtain ⟨⟨d, hd, e, he⟩, -⟩ | hset :=
    ofTree_of_perm documents?_together documents?_apart hperm hdistinct
  · -- both documents fit
    rcases List.mem_pair.1 hd with rfl | rfl
    · rw [ofDocument?_note] at he
      cases he
    · rw [ofDocument?_team] at he
      cases he
  · exact hset

end Layouts

end SchedulerPolicy
