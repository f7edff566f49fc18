import SchedulerPolicy.Proofs.Files.Folders
import SchedulerPolicy.Proofs.Schema.Resources

/-!
# Loading what was written

A resource of a known kind is recognised by its kind in what is written of it, and when it comes
back, it is what is loaded from its document. That is so for every kind alike
(`TeamResource.OfKind.ofDocument?_write`). A directory of folders whose files hold one resource each
is loaded in the order of paths, that is, in some order (`ResourceSet.exists_ofTree_folders`). In
the end resources are sorted by name, and with one resource to a name there is one way to sort them
(`ResourceSet.sortByName_eq`).
-/

namespace SchedulerPolicy

/-! ### Sorting by name -/

namespace ResourceSet

variable {α : Type} {xs ys : List (Resource α)}

theorem pairwise_sortByName (xs : List (Resource α)) :
    (sortByName xs).Pairwise fun a b => a.name ≤ b.name := by
  unfold sortByName
  refine (List.pairwise_mergeSort (fun a b c hab hbc => ?_) (fun a b => ?_) xs).imp
    of_decide_eq_true
  · exact decide_eq_true (String.le_trans (of_decide_eq_true hab) (of_decide_eq_true hbc))
  · rw [Bool.or_eq_true, decide_eq_true_eq, decide_eq_true_eq]
    exact String.le_total a.name b.name

/-- With one resource to a name they are strictly ascending. -/
theorem ascending_sortByName (h : (xs.map Resource.name).Nodup) :
    (sortByName xs).Pairwise fun a b => a.name < b.name := by
  have hnodup : ((sortByName xs).map Resource.name).Nodup :=
    ((List.mergeSort_perm xs _).map Resource.name).nodup_iff.2 h
  refine ((pairwise_sortByName xs).and (List.pairwise_map.1 hnodup)).imp fun {a b} hab => ?_
  exact Keyed.lt_of_not_lt_of_ne (String.not_lt.2 hab.1) (Ne.symm hab.2)

/-- **Resources with different names are sorted in one way.** -/
theorem sortByName_eq (h : xs.Perm ys) (hys : ys.Pairwise fun a b => a.name < b.name) :
    sortByName xs = ys := by
  have hperm : (sortByName xs).Perm ys := (List.mergeSort_perm xs _).trans h
  refine hperm.eq_of_pairwise ?_ (pairwise_sortByName xs) (hys.imp Std.le_of_lt)
  intro a b ha hb hab hba
  -- resources on either side of one another have one name, and so are one resource
  have ha' : a ∈ ys := hperm.mem_iff.1 ha
  exact List.inj_on_of_nodup_map (Keyed.nodup_of_ascending hys) ha' hb (String.le_antisymm hab hba)

/-- So they are sorted alike, whatever order they come in. -/
theorem sortByName_of_perm (hnames : (xs.map Resource.name).Nodup) (h : xs.Perm ys) :
    sortByName xs = sortByName ys := by
  have hnames' : (ys.map Resource.name).Nodup := (h.map Resource.name).nodup_iff.1 hnames
  exact sortByName_eq (h.trans (List.mergeSort_perm ys _).symm) (ascending_sortByName hnames')

/-- Resources that come in the order of their names stay in it. -/
theorem ofList_of_ascending {rs : List TeamResource}
    (hschedulers : (rs.filterMap (·.scheduler?)).Pairwise fun a b => a.name < b.name)
    (hrepositories : (rs.filterMap (·.repository?)).Pairwise fun a b => a.name < b.name)
    (hgroups : (rs.filterMap (·.group?)).Pairwise fun a b => a.name < b.name)
    (henvironments : (rs.filterMap (·.environment?)).Pairwise fun a b => a.name < b.name) :
    ofList rs = {
      schedulers := rs.filterMap (·.scheduler?)
      repositories := rs.filterMap (·.repository?)
      groups := rs.filterMap (·.group?)
      environments := rs.filterMap (·.environment?) } := by
  unfold ofList
  rw [sortByName_eq (.refl _) hschedulers, sortByName_eq (.refl _) hrepositories,
    sortByName_eq (.refl _) hgroups, sortByName_eq (.refl _) henvironments]

end ResourceSet

/-! ### Documents of resources -/

/-- What a document says that it is. -/
def Value.kind? (document : Value) : Option String := (document.get? "kind").bind Value.text?

namespace TeamResource

/-- The kind of a resource. -/
def kind : TeamResource → Kind
  | .scheduler _ => .scheduler
  | .repository _ => .sourceRepository
  | .group _ => .sourceRepositoryGroup
  | .environment _ => .environment

/-- The name of a resource, whatever its kind. -/
def name : TeamResource → String
  | .scheduler s => s.name
  | .repository r => r.name
  | .group g => g.name
  | .environment e => e.name

/-- The resources of one kind among those of all kinds. -/
structure OfKind {α : Type} [Schema α] (kind : Kind)
    (wrap : Resource α → TeamResource) (pick : TeamResource → Option (Resource α)) : Prop where
  /-- A document that says that it is of the kind is read as a resource of the kind. -/
  load : ∀ d : Value, d.kind? = some kind.name →
    ofDocument? d = (some ∘ wrap) <$> (read d : Decoded (Resource α))
  pick_eq_some_iff : ∀ x r, pick x = some r ↔ x = wrap r
  kind_wrap : ∀ r, (wrap r).kind = kind
  name_wrap : ∀ r, (wrap r).name = r.name

variable {α : Type} [Schema α] {kind : Kind} {wrap : Resource α → TeamResource}
  {pick : TeamResource → Option (Resource α)}

theorem ofDocument?_of_kind {d : Value} {name : String} (h : d.kind? = some name) :
    ofDocument? d =
      if name = Kind.scheduler.name then (some ∘ .scheduler) <$> (read d : Decoded Scheduler)
      else if name = Kind.sourceRepository.name then
        (some ∘ .repository) <$> (read d : Decoded SourceRepository)
      else if name = Kind.sourceRepositoryGroup.name then
        (some ∘ .group) <$> (read d : Decoded SourceRepositoryGroup)
      else if name = Kind.environment.name then
        (some ∘ .environment) <$> (read d : Decoded Environment)
      else .ok none := by
  unfold Value.kind? at h
  unfold ofDocument?
  rw [h]

theorem ofKind_scheduler : OfKind .scheduler .scheduler scheduler? where
  load _ h := ofDocument?_of_kind h
  pick_eq_some_iff x r := by cases x <;> simp [scheduler?]
  kind_wrap _ := rfl
  name_wrap _ := rfl

theorem ofKind_repository : OfKind .sourceRepository .repository repository? where
  load _ h := ofDocument?_of_kind h
  pick_eq_some_iff x r := by cases x <;> simp [repository?]
  kind_wrap _ := rfl
  name_wrap _ := rfl

theorem ofKind_group : OfKind .sourceRepositoryGroup .group group? where
  load _ h := ofDocument?_of_kind h
  pick_eq_some_iff x r := by cases x <;> simp [group?]
  kind_wrap _ := rfl
  name_wrap _ := rfl

theorem ofKind_environment : OfKind .environment .environment environment? where
  load _ h := ofDocument?_of_kind h
  pick_eq_some_iff x r := by cases x <;> simp [environment?]
  kind_wrap _ := rfl
  name_wrap _ := rfl

theorem OfKind.kind_of_load (h : OfKind kind wrap pick) {d : Value} {x : TeamResource}
    (hx : (some ∘ wrap) <$> (read d : Decoded (Resource α)) = .ok (some x)) : x.kind = kind := by
  obtain ⟨r, -, hr⟩ := map_eq_ok_iff.1 hx
  rw [← Option.some.inj hr, h.kind_wrap]

/-- A document says that it is of the kind of its resource. -/
theorem kind?_of_ofDocument? {d : Value} {x : TeamResource} (h : ofDocument? d = .ok (some x)) :
    d.kind? = some x.kind.name := by
  cases hkind : d.kind? with
  | none =>
    unfold Value.kind? at hkind
    unfold ofDocument? at h
    rw [hkind] at h
    cases h
  | some name =>
    -- the kinds are tried in turn, and a resource is wrapped as one of the kind that matched
    rw [ofDocument?_of_kind hkind] at h
    split at h
    · next hname => rw [hname, ofKind_scheduler.kind_of_load h]
    split at h
    · next hname => rw [hname, ofKind_repository.kind_of_load h]
    split at h
    · next hname => rw [hname, ofKind_group.kind_of_load h]
    split at h
    · next hname => rw [hname, ofKind_environment.kind_of_load h]
    cases h

theorem kind_write (r : Resource α) : (write r).kind? = some r.kind := by
  have hwrite : write r = .record (field "apiVersion" r.apiVersion ++ field "kind" r.kind ++
      field "metadata" r.metadata ++ field "spec" r.spec) := rfl
  unfold Value.kind?
  rw [hwrite, Value.get?_record]
  rfl

/-- A resource that comes back is loaded from what is written of it. -/
theorem OfKind.ofDocument?_write (h : OfKind kind wrap pick) {r : Resource α}
    (hkind : r.kind = kind.name) (hback : ReadsBack r) :
    ofDocument? (write r) = .ok (some (wrap r)) := by
  have hread : read (write r) = .ok r := hback.read_write Value
  -- the kind is written, so the document says that it is of the kind
  have hsays : (write r).kind? = some kind.name := by
    rw [← hkind]
    exact kind_write r
  rw [h.load _ hsays, hread]
  rfl

end TeamResource

/-! ### Loading folders -/

namespace ResourceSet

/-- What is in a file that can be used: the resources of its documents. -/
theorem inFile_eq_ok_iff {path : String} {content : FileContent} {found : List TeamResource} :
    inFile path content = .ok found ↔
      ∃ contents documents held, content = .text contents ∧
        Yaml.values? contents = some documents ∧
        documents.mapM TeamResource.ofDocument? = .ok held ∧ found = held.filterMap id := by
  unfold inFile
  constructor
  · intro h
    split at h
    · next contents =>
      split at h
      · next documents hvalues =>
        split at h
        · next held hheld =>
          exact ⟨contents, documents, held, rfl, hvalues, hheld, (Except.ok.inj h).symm⟩
        · cases h
      · cases h
    · cases h
  · rintro ⟨contents, documents, held, rfl, hvalues, hheld, rfl⟩
    dsimp only
    rw [hvalues]
    dsimp only
    rw [hheld]

/-- A file with one document holds the resource of the document. -/
theorem inFile_of_document {contents : String} {v : Value} {x : TeamResource}
    (hyaml : Yaml.values? contents = some [v]) (h : TeamResource.ofDocument? v = .ok (some x))
    (path : String) : inFile path (.text contents) = .ok [x] := by
  have hheld : [v].mapM TeamResource.ofDocument? = .ok [some x] := by
    rw [List.mapM_cons, h]
    rfl
  exact inFile_eq_ok_iff.2 ⟨contents, [v], [some x], rfl, hyaml, hheld, rfl⟩

/-- One resource to a file is loaded from each of the files. -/
theorem ofFiles_of_inFile {files : List (String × FileContent)}
    {rs : List TeamResource}
    (h : List.Forall₂ (fun f x => inFile f.1 f.2 = .ok [x]) files rs) :
    ofFiles files = .ok (ofList rs) := by
  have hfound : (files.mapM fun f => inFile f.1 f.2) = .ok (rs.map ([·])) := by
    induction h with
    | nil => rfl
    | cons hfile _ ih =>
      rw [List.mapM_cons, hfile, ih]
      rfl
  unfold ofFiles
  rw [hfound]
  change Except.ok (ofList (rs.map ([·])).flatten) = _
  rw [← List.flatMap_def, List.flatMap_singleton']

/-- **Folders are loaded.** The resources of a directory are those of its files, in some order. -/
theorem exists_ofTree_folders {m : Keyed (Keyed String)} {filed : List (FolderFile × TeamResource)}
    {root : String} (hfiles : (FolderFile.all m).Perm (filed.map Prod.fst))
    (hnames : ∀ p ∈ filed, Path.isHidden p.1.folder = false ∧ Path.isHidden p.1.name = false ∧
      Path.isYaml (p.1.path root) = true)
    (hload : ∀ p ∈ filed, inFile (p.1.path root) (.text p.1.contents) = .ok [p.2]) :
    ∃ found, found.Perm (filed.map Prod.snd) ∧ ofTree root (.folders m) = .ok (ofList found) := by
  -- what is found in a file
  let held (f : FolderFile) : List TeamResource :=
    (inFile (f.path root) (.text f.contents)).toOption.getD []
  have hheld : ∀ p ∈ filed, held p.1 = [p.2] := by
    intro p hp
    change (inFile (p.1.path root) (.text p.1.contents)).toOption.getD [] = [p.2]
    rw [hload p hp]
    rfl
  -- every file of the folders is one that holds a resource
  have hmem : ∀ f ∈ FolderFile.all m, ∃ p ∈ filed, p.1 = f := fun f hf =>
    List.mem_map.1 (hfiles.mem_iff.1 hf)
  have hyaml : (FileTree.folders m).yamlFiles root =
      (FolderFile.all m).map fun f => (f.path root, FileContent.text f.contents) := by
    refine FolderFile.yamlFiles_folders fun f hf => ?_
    obtain ⟨p, hp, rfl⟩ := hmem f hf
    exact hnames p hp
  refine ⟨((FolderFile.all m).map held).flatten, ?_, ?_⟩
  · calc ((FolderFile.all m).map held).flatten
        |>.Perm ((filed.map Prod.fst).map held).flatten := (hfiles.map held).flatten
      _ = (filed.map fun p => [p.2]).flatten := by
        rw [List.map_map]
        exact congrArg List.flatten (List.map_congr_left hheld)
      _ = filed.map Prod.snd := by
        rw [← List.flatMap_def, ← List.map_eq_flatMap]
  · have hfound : ((FolderFile.all m).map fun f => (f.path root, FileContent.text f.contents)).mapM
        (fun f => inFile f.1 f.2) = .ok ((FolderFile.all m).map held) := by
      rw [List.mapM_map]
      refine mapM_eq_ok_map fun f hf => ?_
      obtain ⟨p, hp, rfl⟩ := hmem f hf
      rw [hheld p hp]
      exact hload p hp
    unfold ofTree ofFiles
    rw [hyaml]
    exact bind_eq_of_ok hfound rfl

end ResourceSet

end SchedulerPolicy
