import SchedulerPolicy.Document.Recovered
import SchedulerPolicy.Proofs.Keyed

/-!
# Names of recovered schedulers

The scheduler of a repository is called after the repository, and two repositories may ask for one
name: case, dots and slashes do not survive in it. `freeName` then puts a number behind the name. Of
as many numbers as there are names taken one is always free (`get?_freeName`), so no scheduler takes
the place of an earlier one. A name cannot be blank either, since the dash between organisation and
repository stays (`isBlank_freeName`); a reference to it refers to something.
-/

namespace SchedulerPolicy

/-! ### Free names -/

/-- Different numbers make different names. -/
theorem numberedName_injective {base : String} {i j : Nat}
    (h : numberedName base i = numberedName base j) : i = j := by
  have hdigits : Nat.toDigits 10 (i + 2) = Nat.toDigits 10 (j + 2) := by
    have hchars := congrArg String.toList h
    simp only [numberedName, String.toList_append] at hchars
    have hlist := List.append_cancel_left hchars
    rwa [Nat.toString_eq_ofList_toDigits, Nat.toString_eq_ofList_toDigits, String.toList_ofList,
      String.toList_ofList] at hlist
  -- the digits of a number are read back as the number
  refine Nat.add_right_cancel (m := 2) ?_
  calc i + 2 = Nat.ofDigitChars 10 (Nat.toDigits 10 (i + 2)) 0 :=
        Nat.ofDigitChars_ten_toDigits.symm
    _ = Nat.ofDigitChars 10 (Nat.toDigits 10 (j + 2)) 0 := by rw [hdigits]
    _ = j + 2 := Nat.ofDigitChars_ten_toDigits

/-- A number behind a name makes it longer. -/
theorem numberedName_ne (base : String) (i : Nat) : numberedName base i ≠ base := by
  intro h
  have hlength := congrArg (·.toList.length) h
  unfold numberedName at hlength
  simp only [String.toList_append, List.length_append] at hlength
  have hdash : "-".toList.length = 1 := rfl
  omega

/-- **A free name is not taken.** -/
theorem get?_freeName {α : Type} (taken : Keyed α) (base : String) :
    taken.get? (freeName taken base) = none := by
  unfold freeName
  by_cases hbase : taken.contains base = true
  · rw [if_pos hbase]
    let numbered := (List.range taken.entries.length).map (numberedName base)
    change taken.get? ((numbered.find? fun name => !taken.contains name).getD base) = none
    cases hfind : numbered.find? fun name => !taken.contains name with
    | some name =>
      have hfree := List.find?_some hfind
      unfold Keyed.contains at hfree
      rw [Bool.not_eq_true', Option.isSome_eq_false_iff, Option.isNone_iff_eq_none] at hfree
      exact hfree
    | none =>
      -- the name and its numbered forms would be one name more than are taken
      exfalso
      have hnodup : (base :: numbered).Nodup := by
        refine List.nodup_cons.2 ⟨fun hmem => ?_, ?_⟩
        · obtain ⟨i, -, hi⟩ := List.mem_map.1 hmem
          exact numberedName_ne base i hi
        · refine List.pairwise_map.2 (List.nodup_range.imp fun hne h => ?_)
          exact hne (numberedName_injective h)
      have hsubset : base :: numbered ⊆ taken.keys := by
        intro name hname
        have htaken : taken.contains name = true := by
          rcases List.mem_cons.1 hname with rfl | hname
          · exact hbase
          · simpa using List.find?_eq_none.1 hfind name hname
        exact Keyed.mem_keys_iff.2 (Option.isSome_iff_exists.1 htaken)
      have hle := hnodup.length_le_of_subset hsubset
      unfold Keyed.keys at hle
      simp only [List.length_cons, List.length_map, List.length_range, numbered] at hle
      exact absurd hle (Nat.not_succ_le_self _)
  · rw [if_neg hbase]
    unfold Keyed.contains at hbase
    rwa [Option.not_isSome_iff_eq_none] at hbase

/-! ### Names that are not blank -/

/-- A dash is not changed by lower-casing. -/
theorem dash_mem_lowerFrom (before cs ds : List Char) :
    '-' ∈ Text.lowerFrom before (cs ++ '-' :: ds) := by
  -- what stands in front may change a small letter, but not the dash
  induction cs generalizing before with
  | nil =>
    have hsmall : Text.lowerChar '-' = ['-'] := by decide
    refine List.mem_append_left _ ?_
    rw [if_neg (by decide), hsmall]
    exact List.mem_cons_self
  | cons c cs ih => exact List.mem_append_right _ (ih (c :: before))

theorem dash_mem_resourceName (org repo : String) : '-' ∈ (resourceName org repo).toList := by
  have hlower : '-' ∈ (Text.lowercase (org ++ "-" ++ repo)).toList := by
    unfold Text.lowercase
    rw [String.toList_ofList, String.toList_append, String.toList_append, List.append_assoc]
    exact dash_mem_lowerFrom [] org.toList repo.toList
  unfold resourceName
  rw [String.toList_ofList]
  exact List.mem_map.2 ⟨'-', hlower, rfl⟩

theorem dash_mem_numberedName {base : String} (h : '-' ∈ base.toList) (i : Nat) :
    '-' ∈ (numberedName base i).toList := by
  unfold numberedName
  rw [String.toList_append, String.toList_append]
  exact List.mem_append_left _ (List.mem_append_left _ h)

theorem dash_mem_freeName {α : Type} (taken : Keyed α) {base : String} (h : '-' ∈ base.toList) :
    '-' ∈ (freeName taken base).toList := by
  unfold freeName
  dsimp only
  split
  · cases hfind : ((List.range taken.entries.length).map (numberedName base)).find? fun name =>
      !taken.contains name with
    | none => exact h
    | some name =>
      -- what is found is a numbered form of the name
      obtain ⟨i, -, rfl⟩ := List.mem_map.1 (List.mem_of_find?_eq_some hfind)
      exact dash_mem_numberedName h i
  · exact h

/-- The name of a repository's scheduler is not blank. -/
theorem isBlank_freeName {α : Type} (taken : Keyed α) (org repo : String) :
    Text.isBlank (freeName taken (resourceName org repo)) = false := by
  unfold Text.isBlank
  rw [List.all_eq_false]
  exact ⟨'-', dash_mem_freeName taken (dash_mem_resourceName org repo), by decide⟩

end SchedulerPolicy
