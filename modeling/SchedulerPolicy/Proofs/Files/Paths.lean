import SchedulerPolicy.Files.Path

/-!
# Names along joined paths

A name is joined to a directory by a slash, unless there is nothing in front of it or a slash stands
there already. What the path leads through is the same in all three cases: whatever leads to the
directory, and then the name (`Path.exists_names_join`). The directory itself, when it is written
with a slash at its end, leads through an empty name more, which stays where it is.

So whatever is joined to a directory ends in the name that was joined to it (`Path.lastName_join`),
and two names that are joined to it one after the other can be told from the path
(`Path.exists_names_join_join`).
-/

namespace SchedulerPolicy

namespace Path

/-! ### Joined paths -/

/-- The names that segments stand for when others follow them. -/
def leading : List (List Char) → List String
  | [] :: rest => "/" :: rest.map String.ofList
  | parts => parts.map String.ofList

theorem names_of_segments {path : String} {parts : List (List Char)} {last : List Char}
    (hparts : parts ≠ []) (h : Text.segments path.toList = parts ++ [last]) :
    names path = leading parts ++ [String.ofList last] := by
  unfold names
  rw [h]
  match parts with
  | [[]] => rfl
  | [] :: s :: rest =>
    change "/" :: ((s :: rest) ++ [last]).map String.ofList = _
    rw [List.map_append]
    rfl
  | (c :: cs) :: rest =>
    change (((c :: cs) :: rest) ++ [last]).map String.ofList = _
    rw [List.map_append]
    rfl

theorem names_eq_leading {path : String} (h : path ≠ "") :
    names path = leading (Text.segments path.toList) := by
  unfold names
  split
  · next s rest hs =>
    rw [hs]
    rfl
  · next hs =>
    match hsegments : Text.segments path.toList with
    | [] => exact absurd hsegments (Text.segments_ne_nil _)
    | [[]] =>
      -- only the empty path has an empty segment and no other
      exfalso
      have hpath := Text.joinSegments_segments path.toList
      rw [hsegments] at hpath
      exact h (String.toList_inj.1 hpath.symm)
    | [] :: s :: rest => exact absurd hsegments (hs s rest)
    | (c :: cs) :: rest => rfl

/-- Without slashes there is one name. -/
theorem names_of_notMem {name : String} (h : '/' ∉ name.toList) : names name = [name] := by
  unfold names
  rw [Text.segments_of_notMem h]
  split
  · next hs => cases (List.cons.inj hs).2
  · rw [List.map_singleton, String.ofList_toList]

/-- **A joined path leads to the directory, and then through the name.** -/
theorem exists_names_join (dir : String) :
    ∃ ns, (names dir = ns ∨ names dir = ns ++ [""]) ∧
      ∀ name : String, '/' ∉ name.toList → names (join dir name) = ns ++ [name] := by
  by_cases hempty : dir = ""
  · -- nothing stands in front of the name
    subst hempty
    refine ⟨[], Or.inr rfl, fun name hname => ?_⟩
    have hjoin : join "" name = name := String.empty_append
    rw [hjoin, names_of_notMem hname]
    rfl
  · by_cases hslash : dir.toList.getLast? = some '/'
    · -- a slash stands there already
      obtain ⟨cs, hcs⟩ : ∃ cs, dir.toList = cs ++ ['/'] :=
        List.getLast?_eq_some_iff.1 hslash
      have hdir : Text.segments dir.toList = Text.segments cs ++ [[]] := by
        rw [hcs, Text.segments_append_slash]
        rfl
      refine ⟨leading (Text.segments cs), Or.inr ?_, fun name hname => ?_⟩
      · exact names_of_segments (Text.segments_ne_nil cs) hdir
      · have hjoin : join dir name = dir ++ name := if_pos (by simp [hslash])
        have hsegments :
            Text.segments (dir ++ name).toList = Text.segments cs ++ [name.toList] := by
          rw [String.toList_append, hcs, List.append_assoc, List.singleton_append,
            Text.segments_append_slash, Text.segments_of_notMem hname]
        rw [hjoin, names_of_segments (Text.segments_ne_nil cs) hsegments, String.ofList_toList]
    · refine ⟨names dir, Or.inl rfl, fun name hname => ?_⟩
      have hjoin : join dir name = dir ++ "/" ++ name := if_neg (by simp [hslash, hempty])
      have hsegments : Text.segments (dir ++ "/" ++ name).toList =
          Text.segments dir.toList ++ [name.toList] := by
        rw [String.toList_append, String.toList_append, List.append_assoc,
          ← Text.segments_of_notMem hname]
        exact Text.segments_append_slash _ _
      rw [hjoin, names_of_segments (Text.segments_ne_nil _) hsegments, String.ofList_toList,
        names_eq_leading hempty]

/-- A path of two names in a directory leads to the directory, and then through both. -/
theorem exists_names_join_join (dir : String) :
    ∃ ns, (names dir = ns ∨ names dir = ns ++ [""]) ∧
      ∀ kind name : String, '/' ∉ kind.toList → kind ≠ "" → '/' ∉ name.toList →
        names (join (join dir kind) name) = ns ++ [kind, name] := by
  obtain ⟨ns, hdir, hjoin⟩ := exists_names_join dir
  refine ⟨ns, hdir, fun kind name hkind hne hname => ?_⟩
  obtain ⟨ms, hms, hname'⟩ := exists_names_join (join dir kind)
  rw [hjoin kind hkind] at hms
  -- the path of the first name does not end in an empty name
  obtain rfl : ms = ns ++ [kind] := by
    rcases hms with hms | hms
    · exact hms.symm
    · have hlast := (List.append_inj' hms rfl).2
      exact absurd (List.singleton_inj.1 hlast) hne
  rw [hname' name hname, List.append_assoc]
  rfl

/-- The last name of a path that is joined is the name that was joined. -/
theorem lastName_join (dir : String) {name : String} (h : '/' ∉ name.toList) :
    lastName (join dir name) = name := by
  obtain ⟨ns, -, hjoin⟩ := exists_names_join dir
  unfold lastName
  rw [hjoin name h, List.getLast?_concat]
  rfl

/-! ### Names that stand for themselves -/

/-- A name that stands for itself. -/
structure IsName (name : String) : Prop where
  slash : '/' ∉ name.toList
  ne_empty : name ≠ ""
  ne_dot : name ≠ "."
  ne_dots : name ≠ ".."

variable {name : String}

theorem IsName.enter (h : IsName name) (place : List String) :
    enter place name = place ++ [name] := by
  unfold Path.enter
  rw [if_neg (not_or.2 ⟨h.ne_empty, h.ne_dot⟩), if_neg h.ne_dots]

/-! ### Names of YAML files -/

/-- A name that can stand in front of an extension. -/
structure IsStem (name : String) : Prop where
  slash : '/' ∉ name.toList
  period : '.' ∉ name.toList
  ne_empty : name ≠ ""

theorem IsStem.isName_yaml (h : IsStem name) : IsName (name ++ ".yaml") := by
  have hletter : 'y' ∈ (name ++ ".yaml").toList := by
    rw [String.toList_append]
    exact List.mem_append_right _ (by decide)
  -- none of the names that do not stand for themselves has a letter
  have hne : ∀ {other : String}, 'y' ∉ other.toList → name ++ ".yaml" ≠ other := by
    rintro other hother rfl
    exact hother hletter
  constructor
  case slash =>
    rw [String.toList_append, List.mem_append, not_or]
    exact ⟨h.slash, by decide⟩
  case ne_empty => exact hne (by decide)
  case ne_dot => exact hne (by decide)
  case ne_dots => exact hne (by decide)

theorem IsStem.isHidden_yaml (h : IsStem name) : isHidden (name ++ ".yaml") = false := by
  unfold isHidden
  rw [String.toList_append]
  cases hname : name.toList with
  | nil => exact absurd (String.toList_inj.1 hname) h.ne_empty
  | cons c cs =>
    refine beq_false_of_ne fun hhead => h.period ?_
    rw [hname, Option.some.inj hhead]
    exact List.mem_cons_self

theorem IsStem.hasExtension_yaml (h : IsStem name) :
    hasExtension "yaml" (name ++ ".yaml") = true := by
  unfold hasExtension
  rw [Bool.and_eq_true, List.isSuffixOf_iff_suffix, decide_eq_true_eq, String.toList_append]
  refine ⟨List.suffix_append name.toList _, ?_⟩
  -- what stands in front of the extension is not empty
  have hpos : 0 < name.length :=
    Nat.pos_of_ne_zero fun hzero => h.ne_empty (String.length_eq_zero_iff.1 hzero)
  have hyaml : "yaml".length + 1 = ".yaml".length := by decide
  rw [String.length_append, hyaml]
  exact Nat.lt_add_of_pos_left hpos

theorem IsStem.isYaml_join (h : IsStem name) (dir : String) :
    isYaml (join dir (name ++ ".yaml")) = true := by
  have hname := lastName_join dir h.isName_yaml.slash
  unfold isYaml
  rw [hname]
  exact Bool.or_eq_true_iff.2 (Or.inl h.hasExtension_yaml)

end Path

end SchedulerPolicy
