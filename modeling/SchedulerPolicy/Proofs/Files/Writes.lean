import SchedulerPolicy.Files.Tree
import SchedulerPolicy.Proofs.Files.Paths

/-!
# Writing below a directory

A file is written where its path leads, and the directories on the way are made. What stands at the
directory in front of the path is then what the same write makes of it alone
(`FileTree.exists_set?_append`), so that the tree around a directory need not be looked at. Whatever
was a directory still is one (`FileTree.keeps_of_set?`); hence a path that led to a directory leads
there after the write, even when it goes up again on its way (`FileTree.follow?_of_keeps`).

Together: a write at `dir/kind/name` succeeds when it does inside of what stands at `dir`
(`FileTree.exists_write?`).
-/

namespace SchedulerPolicy

namespace FileTree

variable {t t' new sub sub' : FileTree} {place rest : List String}
  {es es' : List (String × FileTree)}

/-! ### Places -/

theorem get?_append (t : FileTree) (place rest : List String) :
    t.get? (place ++ rest) = (t.get? place).bind fun s => s.get? rest := by
  induction place generalizing t with
  | nil => rfl
  | cons name names ih =>
    change ((t.child? name).bind fun c => c.get? (names ++ rest)) =
      ((t.child? name).bind fun c => c.get? names).bind fun s => s.get? rest
    cases t.child? name with
    | none => rfl
    | some c => exact ih c

theorem lookup_setEntry (name other : String) (t : FileTree) (es : List (String × FileTree)) :
    (setEntry name t es).lookup other = if other = name then some t else es.lookup other := by
  have hhead : ∀ rest : List (String × FileTree), List.lookup other ((name, t) :: rest) =
      if other = name then some t else rest.lookup other := by
    intro rest
    rw [List.lookup_cons]
    by_cases hname : other = name
    · rw [if_pos hname, beq_iff_eq.2 hname]
    · rw [if_neg hname, beq_false_of_ne hname]
  induction es with
  | nil => exact hhead []
  | cons e es ih =>
    obtain ⟨n, u⟩ := e
    unfold setEntry
    -- the new entry goes in front of the first, in its place, or further down
    split
    · exact hhead _
    · split
      · next hn =>
        subst hn
        rw [hhead, List.lookup_cons]
        by_cases hname : other = name
        · rw [if_pos hname, if_pos hname]
        · rw [if_neg hname, if_neg hname, beq_false_of_ne hname]
      · next hn =>
        rw [List.lookup_cons, List.lookup_cons, ih]
        by_cases hother : other = n
        · subst hother
          rw [beq_self_eq_true]
          exact (if_neg (Ne.symm hn)).symm
        · rw [beq_false_of_ne hother]

/-- What is set below a place is set in what stands there. -/
theorem exists_set?_append (h : t.get? place = some sub) (hset : set? new rest sub = some sub') :
    ∃ t', set? new (place ++ rest) t = some t' ∧ t'.get? place = some sub' := by
  induction place generalizing t with
  | nil =>
    obtain rfl := Option.some.inj h
    exact ⟨sub', hset, rfl⟩
  | cons name names ih =>
    obtain ⟨c, hc, hget⟩ := Option.bind_eq_some_iff.1 h
    -- only a directory has something under a name
    cases t with
    | directory es =>
      obtain ⟨c', hc', hget'⟩ := ih hget
      refine ⟨.directory (setEntry name c' es), ?_, ?_⟩
      · have hold : es.lookup name = some c := hc
        change (set? new (names ++ rest) ((es.lookup name).getD ∅)).map _ = _
        rw [hold, Option.getD_some, hc']
        rfl
      · change ((setEntry name c' es).lookup name).bind _ = _
        rw [lookup_setEntry, if_pos rfl]
        exact hget'
    | file contents => cases hc
    | unreadable => cases hc

/-! ### Directories stay -/

/-- What is a directory in one tree is one in the other. -/
def Keeps (t t' : FileTree) : Prop :=
  ∀ place es, t.get? place = some (.directory es) → ∃ es', t'.get? place = some (.directory es')

/-- Setting something in the place of no directory keeps all directories. -/
theorem keeps_of_set? (h : set? new place t = some t')
    (hplace : ∀ es, t.get? place ≠ some (.directory es)) : Keeps t t' := by
  induction place generalizing t t' with
  | nil =>
    intro q es hq
    cases t with
    | directory es => exact absurd rfl (hplace es)
    | file contents => cases q <;> cases hq
    | unreadable => cases q <;> cases hq
  | cons name names ih =>
    cases t with
    | directory entries =>
      obtain ⟨c, hc, rfl⟩ := Option.map_eq_some_iff.1 h
      intro q es hq
      -- the place of a directory goes the same way as what is set, or another
      cases q with
      | nil => exact ⟨_, rfl⟩
      | cons n q =>
        obtain ⟨u, hu, hget⟩ := Option.bind_eq_some_iff.1 hq
        change ∃ es', ((setEntry name c entries).lookup n).bind _ = _
        rw [lookup_setEntry]
        by_cases hn : n = name
        · subst hn
          have hold : entries.lookup n = some u := hu
          rw [hold, Option.getD_some] at hc
          rw [if_pos rfl]
          refine ih hc (fun es hes => hplace es ?_) q es hget
          exact Option.bind_eq_some_iff.2 ⟨u, hu, hes⟩
        · rw [if_neg hn]
          exact ⟨es, hq⟩
    | file contents => cases h
    | unreadable => cases h

theorem Keeps.refl (t : FileTree) : Keeps t t := fun _ es h => ⟨es, h⟩

theorem follow?_cons (t : FileTree) (make : Bool) (place : List String) (n : String)
    (ns : List String) : t.follow? make place (n :: ns) =
      match t.get? place with
      | some (.directory _) => t.follow? make (Path.enter place n) ns
      | none => if make then t.follow? make (Path.enter place n) ns else none
      | some _ => none := rfl

/-- A path through directories leads to the same place when they are kept. -/
theorem follow?_of_keeps (hkeeps : Keeps t t') (make : Bool) {ns : List String}
    (h : t.follow? false place ns = some rest) : t'.follow? make place ns = some rest := by
  induction ns generalizing place with
  | nil => exact h
  | cons n ns ih =>
    -- without directories made on the way, each step stands in one that is there
    unfold follow? at h ⊢
    split at h
    · next es hes =>
      obtain ⟨es', hes'⟩ := hkeeps place es hes
      rw [hes']
      exact ih h
    · cases h
    · cases h

theorem follow?_append (t : FileTree) (make : Bool) (place ns ms : List String) :
    t.follow? make place (ns ++ ms) =
      (t.follow? make place ns).bind fun q => t.follow? make q ms := by
  induction ns generalizing place with
  | nil => rfl
  | cons n ns ih =>
    rw [List.cons_append, follow?_cons, follow?_cons]
    split
    · exact ih _
    · split
      · exact ih _
      · rfl
    · rfl

/-- In a directory the empty name leads nowhere else. -/
theorem follow?_stay (make : Bool) (h : t.get? place = some (.directory es)) :
    t.follow? make place [""] = some place := by
  rw [follow?_cons, h]
  rfl

/-! ### Paths in a directory -/

/-- A directory is found where the names lead that lead to everything in it. -/
theorem find?_eq_directory_iff {dir : String} {ns : List String}
    (hdir : Path.names dir = ns ∨ Path.names dir = ns ++ [""]) :
    t.find? dir = some (.directory es) ↔
      ∃ place, t.follow? false [] ns = some place ∧ t.get? place = some (.directory es) := by
  unfold find?
  rw [Option.bind_eq_some_iff]
  refine exists_congr fun place => and_congr_left fun hplace => ?_
  rcases hdir with hdir | hdir
  · rw [hdir]
  · -- the empty name at the end stays where it is
    rw [hdir, follow?_append, Option.bind_eq_some_iff]
    constructor
    · rintro ⟨q, hq, hstay⟩
      rw [follow?_cons] at hstay
      split at hstay
      · obtain rfl : q = place := Option.some.inj hstay
        exact hq
      · cases hstay
      · cases hstay
    · exact fun hfollow => ⟨place, hfollow, follow?_stay false hplace⟩

/-- A file is set where its path leads, unless a directory stands there. -/
theorem write?_of_follow? {path contents : String}
    (hfollow : t.follow? true [] (Path.names path) = some place)
    (hfree : ∀ es, t.get? place ≠ some (.directory es)) :
    t.write? path contents = set? (.file contents) place t := by
  unfold write?
  rw [hfollow, Option.bind_eq_bind, Option.bind_some]
  split
  · next es hes => exact absurd hes (hfree es)
  · rfl

/-- A file that is there can be written, and then holds what was written. -/
theorem exists_write?_of_content {path text : String} (h : t.content path = .text text)
    (contents : String) :
    ∃ t', t.write? path contents = some t' ∧ t'.content path = .text contents := by
  have hfind : t.find? path = some (.file text) := by
    unfold content at h
    cases hfind : t.find? path with
    | none =>
      rw [hfind] at h
      cases h
    | some u =>
      rw [hfind] at h
      cases u <;> cases h
      rfl
  obtain ⟨place, hfollow, hplace⟩ := Option.bind_eq_some_iff.1 hfind
  have hfree : ∀ es, t.get? place ≠ some (.directory es) := by
    intro es hes
    rw [hplace] at hes
    cases hes
  have hreplaced : set? (.file contents) [] (.file text) = some (.file contents) := rfl
  obtain ⟨t', hset, hnew⟩ := exists_set?_append hplace hreplaced
  rw [List.append_nil] at hset
  refine ⟨t', ?_, ?_⟩
  · rw [write?_of_follow? (follow?_of_keeps (Keeps.refl t) true hfollow) hfree, hset]
  · -- the path leads to the same place as before
    have hfind' : t'.find? path = some (.file contents) :=
      Option.bind_eq_some_iff.2
        ⟨place, follow?_of_keeps (keeps_of_set? hset hfree) false hfollow, hnew⟩
    unfold content
    rw [hfind']
    rfl

/-- **A write below a directory** succeeds when what stands under the first name is a directory or
nothing, and what stands under both names is none. The directory is then what the write makes of it.
-/
theorem exists_write? {dir kind name contents : String} (hkind : Path.IsName kind)
    (hname : Path.IsName name) (h : t.find? dir = some (.directory es))
    (hfolder : ∀ c, (directory es).get? [kind] = some c → ∃ entries, c = .directory entries)
    (hfile : ∀ entries, (directory es).get? [kind, name] ≠ some (.directory entries))
    (hset : set? (.file contents) [kind, name] (.directory es) = some (.directory es')) :
    ∃ t', t.write? (Path.join (Path.join dir kind) name) contents = some t' ∧
      t'.find? dir = some (.directory es') := by
  obtain ⟨ns, hdir, hjoin⟩ := Path.exists_names_join_join dir
  obtain ⟨place, hfollow, hplace⟩ := (find?_eq_directory_iff hdir).1 h
  obtain ⟨t', ht', hplace'⟩ := exists_set?_append hplace hset
  have hfree : ∀ entries, t.get? (place ++ [kind, name]) ≠ some (.directory entries) := by
    rw [get?_append, hplace]
    exact hfile
  -- the way to the directory is the same as before, and both names are passed
  have hmiddle : t.follow? true (place ++ [kind]) [name] = some (place ++ [kind, name]) := by
    have hpass : t.follow? true (Path.enter (place ++ [kind]) name) [] =
        some (place ++ [kind, name]) := by
      rw [hname.enter, List.append_assoc]
      rfl
    rw [follow?_cons]
    -- under the first name stands a directory, or nothing and one is made
    split
    · exact hpass
    · exact hpass
    · next c hnot hc =>
      rw [get?_append, hplace] at hc
      obtain ⟨entries, hentries⟩ := hfolder c hc
      exact absurd hentries (hnot entries)
  have hpath : t.follow? true [] (ns ++ [kind, name]) = some (place ++ [kind, name]) := by
    rw [follow?_append, follow?_of_keeps (Keeps.refl t) true hfollow, Option.bind_some,
      follow?_cons, hplace, hkind.enter]
    exact hmiddle
  refine ⟨t', ?_, (find?_eq_directory_iff hdir).2 ⟨place, ?_, hplace'⟩⟩
  · rw [← hjoin kind name hkind.slash hkind.ne_empty hname.slash] at hpath
    rw [write?_of_follow? hpath hfree]
    exact ht'
  · exact follow?_of_keeps (keeps_of_set? ht' hfree) false hfollow

end FileTree

end SchedulerPolicy
