import Mathlib.Data.List.Nodup
import SchedulerPolicy.Proofs.Documents.Table
import SchedulerPolicy.Proofs.Files.Runs
import SchedulerPolicy.Proofs.Files.Writes

/-!
# Directories of folders

What files come to when each is written into some folder of one directory is a map of maps: to every
folder its files, with their contents (`FileTree.folders`). A write of one file puts one entry into
it (`FolderFile.put`), whatever stands around the directory (`FolderFile.exists_write?`), and so the
files of a run are those of the loop over them (`FolderFile.exists_writeFiles`). When no two of them
have one place, the directory lists exactly these files in the end, in another order at most
(`FolderFile.all_perm`).
-/

namespace SchedulerPolicy

/-! ### Folders as trees -/

namespace FileTree

/-- A directory with nothing but files in it. -/
def folder (files : Keyed String) : FileTree := .directory (files.map .file).entries

/-- A directory with nothing but folders in it. -/
def folders (m : Keyed (Keyed String)) : FileTree := .directory (m.map folder).entries

theorem setEntry_entries (name : String) (t : FileTree) (m : Keyed FileTree) :
    setEntry name t m.entries = (m.insert name t).entries := by
  change _ = Keyed.alterEntries name (fun _ => t) m.entries
  induction m.entries with
  | nil => rfl
  | cons e es ih =>
    obtain ⟨n, u⟩ := e
    unfold setEntry Keyed.alterEntries
    rw [ih]
    split
    · rfl
    · split
      · next hn => rw [hn]
      · rfl

theorem set?_cons_entries (new : FileTree) (name : String) (names : List String)
    (m : Keyed FileTree) :
    set? new (name :: names) (.directory m.entries) =
      (set? new names ((m.get? name).getD ∅)).map fun t =>
        .directory (m.insert name t).entries := by
  change (set? new names ((m.get? name).getD ∅)).map _ = _
  congr 1
  funext t
  rw [setEntry_entries]

theorem get?_cons_folders (m : Keyed (Keyed String)) (name : String) (names : List String) :
    (folders m).get? (name :: names) =
      (m.get? name).bind fun files => (folder files).get? names := by
  change ((m.map folder).get? name).bind _ = _
  rw [Keyed.get?_map]
  cases m.get? name <;> rfl

theorem get?_folder (files : Keyed String) (name : String) :
    (folder files).get? [name] = (files.get? name).map .file := by
  change ((files.map file).get? name).bind _ = _
  rw [Keyed.get?_map]
  cases files.get? name <;> rfl

/-! What a directory lists it lists entry by entry. -/

theorem files_directory (place : List String) (es : List (String × FileTree)) :
    files place (.directory es) = es.flatMap fun e => files (place ++ [e.1]) e.2 := by
  change entryFiles place es = _
  induction es with
  | nil => rfl
  | cons e es ih =>
    rw [List.flatMap_cons, ← ih]
    rfl

theorem yamlFiles_directory (path : String) (es : List (String × FileTree)) :
    yamlFiles path (.directory es) = es.flatMap fun e =>
      if Path.isHidden e.1 then [] else yamlFiles (Path.join path e.1) e.2 := by
  change entryYamlFiles path es = _
  induction es with
  | nil => rfl
  | cons e es ih =>
    rw [List.flatMap_cons, ← ih]
    rfl

theorem files_folder (place : List String) (files : Keyed String) :
    (folder files).files place = files.entries.map fun x => (place ++ [x.1], x.2) := by
  unfold folder
  rw [files_directory]
  change (files.entries.map _).flatMap _ = _
  rw [List.flatMap_map, List.map_eq_flatMap]
  rfl

theorem yamlFiles_folder {path : String} {files : Keyed String}
    (h : ∀ x ∈ files.entries, Path.isHidden x.1 = false ∧
      Path.isYaml (Path.join path x.1) = true) :
    (folder files).yamlFiles path =
      files.entries.map fun x => (Path.join path x.1, FileContent.text x.2) := by
  unfold folder
  rw [yamlFiles_directory]
  change (files.entries.map _).flatMap _ = _
  rw [List.flatMap_map, List.map_eq_flatMap]
  refine List.flatMap_congr fun x hx => ?_
  obtain ⟨hhidden, hyaml⟩ := h x hx
  dsimp only
  rw [hhidden, if_neg Bool.false_ne_true, yamlFiles, if_pos hyaml]

end FileTree

/-! ### Files in folders -/

/-- A file in a folder. -/
structure FolderFile where
  folder : String
  name : String
  contents : String

namespace FolderFile

/-- Where a file is in its directory. -/
def place (f : FolderFile) : String × String := (f.folder, f.name)

/-- The path of a file. -/
def path (dir : String) (f : FolderFile) : String := Path.join (Path.join dir f.folder) f.name

/-- Both names stand for themselves. -/
structure Plain (f : FolderFile) : Prop where
  folder : Path.IsName f.folder
  name : Path.IsName f.name

/-- The folders once a file is written. -/
def put (m : Keyed (Keyed String)) (f : FolderFile) : Keyed (Keyed String) :=
  m.alter f.folder fun files => (files.getD ∅).insert f.name f.contents

/-- All files in folders. -/
def all (m : Keyed (Keyed String)) : List FolderFile :=
  m.entries.flatMap fun e => e.2.entries.map fun x =>
    { folder := e.1, name := x.1, contents := x.2 }

variable {m : Keyed (Keyed String)} {f : FolderFile} {fs : List FolderFile}

/-- Different files have different paths. -/
theorem place_eq_of_path {dir : String} {f g : FolderFile} (hf : f.Plain) (hg : g.Plain)
    (h : f.path dir = g.path dir) : f.place = g.place := by
  obtain ⟨ns, -, hjoin⟩ := Path.exists_names_join_join dir
  have hnames := congrArg Path.names h
  unfold path at hnames
  rw [hjoin _ _ hf.folder.slash hf.folder.ne_empty hf.name.slash,
    hjoin _ _ hg.folder.slash hg.folder.ne_empty hg.name.slash] at hnames
  obtain ⟨hfolder, hname⟩ := List.cons.inj (List.append_cancel_left hnames)
  exact Prod.ext hfolder (List.singleton_inj.1 hname)

theorem getIn?_put (m : Keyed (Keyed String)) (f : FolderFile) (p : String × String) :
    (put m f).getIn? id p = if f.place = p then some f.contents else m.getIn? id p := by
  refine Keyed.getIn?_alter (p := f.place) ?_ p
  rw [Option.map_id]
  rfl

/-- The files in folders are what the folders hold at their places. -/
theorem mem_all_iff : f ∈ all m ↔ m.getIn? id f.place = some f.contents := by
  unfold all Keyed.getIn?
  rw [List.mem_flatMap, Option.bind_eq_some_iff]
  constructor
  · rintro ⟨e, he, hf⟩
    obtain ⟨x, hx, rfl⟩ := List.mem_map.1 hf
    exact ⟨e.2, Keyed.get?_eq_some_iff.2 he, Keyed.get?_eq_some_iff.2 hx⟩
  · rintro ⟨files, hfiles, hcontents⟩
    refine ⟨(f.folder, files), Keyed.get?_eq_some_iff.1 hfiles, ?_⟩
    exact List.mem_map.2 ⟨(f.name, f.contents), Keyed.get?_eq_some_iff.1 hcontents, rfl⟩

theorem nodup_all (m : Keyed (Keyed String)) : (all m).Nodup := by
  refine List.nodup_flatMap.2 ⟨fun e _ => ?_, m.ascending.imp fun {e e'} hlt => ?_⟩
  · -- the files of one folder have different names
    refine List.Nodup.of_map name ?_
    rw [List.map_map]
    exact e.2.nodup_keys
  · -- the files of two folders are in different folders
    intro f hf hf'
    obtain ⟨x, -, rfl⟩ := List.mem_map.1 hf
    obtain ⟨x', -, hx'⟩ := List.mem_map.1 hf'
    have hfolder : e'.1 = e.1 := congrArg folder hx'
    exact String.lt_irrefl _ (hfolder ▸ hlt)

/-- **Files with different places all stay.** -/
theorem all_perm (h : (fs.map place).Nodup) : (all (fs.foldl put ∅)).Perm fs := by
  -- after the loop a place holds what the file of the place put there
  have hlook : ∀ p, (fs.foldl put ∅).getIn? id p =
      (itemAt place fs p).bind fun f => some f.contents := fun p =>
    @look_foldl_of_none _ _ _ _ place fs _ (Keyed.getIn? id) put (fun f _ => some f.contents)
      getIn?_put h ∅ (fun _ => rfl) p
  refine (List.perm_ext_iff_of_nodup (nodup_all _) h.of_map).2 fun f => ?_
  rw [mem_all_iff, hlook, Option.bind_eq_some_iff]
  constructor
  · rintro ⟨g, hg, hcontents⟩
    obtain ⟨hmem, hplace⟩ := itemAt_eq_some hg
    -- a file is its place and its contents
    obtain ⟨hfolder, hname⟩ := Prod.mk.inj hplace
    have heq : g = f := by
      cases f
      cases g
      cases hfolder
      cases hname
      cases hcontents
      rfl
    exact heq ▸ hmem
  · intro hmem
    exact ⟨f, itemAt_key h hmem, rfl⟩

/-! ### Writing files into folders -/

theorem set?_folders (m : Keyed (Keyed String)) (f : FolderFile) :
    FileTree.set? (.file f.contents) [f.folder, f.name] (.folders m) =
      some (.folders (put m f)) := by
  -- the folder is there, or it is made
  have hfolder : ((m.map FileTree.folder).get? f.folder).getD ∅ =
      .folder ((m.get? f.folder).getD ∅) := by
    rw [Keyed.get?_map]
    cases m.get? f.folder <;> rfl
  have hfile : FileTree.set? (.file f.contents) [f.name] (.folder ((m.get? f.folder).getD ∅)) =
      some (.folder (((m.get? f.folder).getD ∅).insert f.name f.contents)) := by
    unfold FileTree.folder
    rw [FileTree.set?_cons_entries, Keyed.map_insert]
    rfl
  -- a folder is altered by setting one of its files
  unfold FileTree.folders put
  rw [FileTree.set?_cons_entries, hfolder, hfile, Keyed.alter_eq_insert, Keyed.map_insert]
  rfl

/-- **One file more.** A file is written into its folder, and the other files stay. -/
theorem exists_write? {t : FileTree} {dir : String} (hplain : f.Plain)
    (h : t.find? dir = some (.folders m)) :
    ∃ t', t.write? (f.path dir) f.contents = some t' ∧
      t'.find? dir = some (.folders (put m f)) := by
  refine FileTree.exists_write? hplain.folder hplain.name h ?folder ?file (set?_folders m f)
  case folder =>
    -- in the directory there are folders only
    intro c hc
    change (FileTree.folders m).get? [f.folder] = some c at hc
    rw [FileTree.get?_cons_folders] at hc
    obtain ⟨files, -, hfiles⟩ := Option.bind_eq_some_iff.1 hc
    exact ⟨_, (Option.some.inj hfiles).symm⟩
  case file =>
    -- and in a folder files only
    intro entries hfile
    change (FileTree.folders m).get? [f.folder, f.name] = some (.directory entries) at hfile
    rw [FileTree.get?_cons_folders] at hfile
    obtain ⟨files, -, hfiles⟩ := Option.bind_eq_some_iff.1 hfile
    rw [FileTree.get?_folder] at hfiles
    obtain ⟨contents, -, hcontents⟩ := Option.map_eq_some_iff.1 hfiles
    cases hcontents

/-- The files of a run are all written. -/
theorem exists_writeFiles {t : FileTree} {dir : String}
    (hplain : ∀ f ∈ fs, f.Plain)
    (h : t.find? dir = some (.folders m)) :
    ∃ t', (RunT.writeFiles (fs.map fun f => (f.path dir, f.contents)) :
        RunT (StateM FileTree) Unit).run.run t = (.ok (), t') ∧
      t'.find? dir = some (.folders (fs.foldl put m)) := by
  induction fs generalizing t m with
  | nil => exact ⟨t, rfl, h⟩
  | cons f fs ih =>
    -- the folders after the first write are those that the others are written into
    rw [List.forall_mem_cons] at hplain
    obtain ⟨t₁, hwrite, hfind⟩ := exists_write? hplain.1 h
    obtain ⟨t', hrun, hfind'⟩ := ih hplain.2 hfind
    exact ⟨t', (RunT.run_bind_of_ok (RunT.run_writeFile hwrite)).trans hrun, hfind'⟩

/-! ### What is found in folders -/

/-- All files of the directory are those in its folders. -/
theorem files_folders (m : Keyed (Keyed String)) :
    (FileTree.folders m).files [] = (all m).map fun f => ([f.folder, f.name], f.contents) := by
  unfold FileTree.folders all
  rw [FileTree.files_directory, List.map_flatMap]
  change (m.entries.map _).flatMap _ = _
  rw [List.flatMap_map]
  refine List.flatMap_congr fun e _ => ?_
  rw [List.map_map]
  exact FileTree.files_folder [e.1] e.2

/-- All YAML files of the directory are those in its folders, when each of them is one and neither
it nor its folder is hidden. -/
theorem yamlFiles_folders {root : String}
    (h : ∀ f ∈ all m, Path.isHidden f.folder = false ∧ Path.isHidden f.name = false ∧
      Path.isYaml (f.path root) = true) :
    (FileTree.folders m).yamlFiles root =
      (all m).map fun f => (f.path root, FileContent.text f.contents) := by
  unfold all at h ⊢
  unfold FileTree.folders
  rw [FileTree.yamlFiles_directory, List.map_flatMap]
  change (m.entries.map _).flatMap _ = _
  rw [List.flatMap_map]
  refine List.flatMap_congr fun e he => ?_
  rw [List.map_map]
  have hfiles : ∀ x ∈ e.2.entries, Path.isHidden e.1 = false ∧ Path.isHidden x.1 = false ∧
      Path.isYaml (Path.join (Path.join root e.1) x.1) = true := fun x hx =>
    h { folder := e.1, name := x.1, contents := x.2 }
      (List.mem_flatMap.2 ⟨e, he, List.mem_map_of_mem hx⟩)
  dsimp only
  split
  · next hhidden =>
    -- nothing would be in a hidden folder
    have hnil : e.2.entries = [] := List.eq_nil_iff_forall_not_mem.2 fun x hx => by
      rw [(hfiles x hx).1] at hhidden
      cases hhidden
    rw [hnil]
    rfl
  · exact FileTree.yamlFiles_folder fun x hx => (hfiles x hx).2

end FolderFile

end SchedulerPolicy
