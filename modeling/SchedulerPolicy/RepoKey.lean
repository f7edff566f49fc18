/-!
# Repository keys

The compiled documents name a repository by one text, `org/repo`. An organisation may be nested
(`group/sub`), so a key is split at its last slash, and a key splits only when both sides are there.

Joining and splitting undo each other exactly for the pairs whose repository holds no slash
(`split_join`), and whatever splits is the key of its two parts (`join_of_split`). With a slash in
the repository a key splits elsewhere, or not at all (`exists_split_join_iff`).
-/

namespace SchedulerPolicy.RepoKey

/-- The key of a repository in an organisation. -/
def join (org repo : String) : String := org ++ "/" ++ repo

/-- The characters before the last slash and those after it, when there is one. -/
def splitLast : List Char → Option (List Char × List Char)
  | [] => none
  | c :: cs =>
    match splitLast cs with
    | some (before, after) => some (c :: before, after)
    | none => if c = '/' then some ([], cs) else none

/-- The organisation and the repository that a key names, split at the last slash; `none` when
there is no slash or when one side is empty. -/
def split? (key : String) : Option (String × String) :=
  match splitLast key.toList with
  | some (org, repo) =>
    if org.isEmpty || repo.isEmpty then none else some (String.ofList org, String.ofList repo)
  | none => none

/-! ### Splitting at the last slash -/

/-- There is no last slash exactly when there is none at all. -/
theorem splitLast_eq_none_iff {cs : List Char} : splitLast cs = none ↔ '/' ∉ cs := by
  induction cs with
  | nil => simp [splitLast]
  | cons c cs ih =>
    unfold splitLast
    cases h : splitLast cs with
    | some pair =>
      have hmem : '/' ∈ cs := by
        apply Classical.byContradiction
        intro hn
        simp [ih.2 hn] at h
      simp [hmem]
    | none =>
      have hn := ih.1 h
      by_cases hc : c = '/'
      · simp [hc]
      · simp [hc, hn, Ne.symm hc]

/-- The two parts and the slash between them make up the text, and the second part has no slash. -/
theorem splitLast_eq_some_iff {cs before after : List Char} :
    splitLast cs = some (before, after) ↔ cs = before ++ '/' :: after ∧ '/' ∉ after := by
  induction cs generalizing before after with
  | nil => simp [splitLast]
  | cons c cs ih =>
    unfold splitLast
    cases h : splitLast cs with
    | some pair =>
      obtain ⟨b, a⟩ := pair
      have hba := ih.1 h
      simp only [Option.some.injEq, Prod.mk.injEq]
      constructor
      · rintro ⟨rfl, rfl⟩
        exact ⟨by simp [hba.1], hba.2⟩
      · rintro ⟨heq, hno⟩
        cases before with
        | nil =>
          simp only [List.nil_append, List.cons.injEq] at heq
          have : '/' ∈ cs := by rw [hba.1]; simp
          exact absurd (heq.2 ▸ this) hno
        | cons d ds =>
          simp only [List.cons_append, List.cons.injEq] at heq
          have := ih.2 ⟨heq.2, hno⟩
          rw [h] at this
          simp only [Option.some.injEq, Prod.mk.injEq] at this
          simp [heq.1, this.1, this.2]
    | none =>
      have hn := splitLast_eq_none_iff.1 h
      by_cases hc : c = '/'
      · subst hc
        simp only [if_true, Option.some.injEq, Prod.mk.injEq]
        constructor
        · rintro ⟨rfl, rfl⟩
          exact ⟨rfl, hn⟩
        · rintro ⟨heq, hno⟩
          cases before with
          | nil => exact ⟨rfl, by simpa using heq⟩
          | cons d ds =>
            simp only [List.cons_append, List.cons.injEq] at heq
            exact absurd (by rw [heq.2]; simp) hn
      · simp only [hc, if_false]
        constructor
        · intro hf
          simp at hf
        · rintro ⟨heq, -⟩
          cases before with
          | nil => simp only [List.nil_append, List.cons.injEq] at heq; exact absurd heq.1 hc
          | cons d ds =>
            simp only [List.cons_append, List.cons.injEq] at heq
            exact absurd (by rw [heq.2]; simp) hn

/-- A key splits at its last slash. -/
theorem splitLast_of_split {key org repo : String} (h : split? key = some (org, repo)) :
    splitLast key.toList = some (org.toList, repo.toList) := by
  unfold split? at h
  cases hs : splitLast key.toList with
  | none => simp [hs] at h
  | some pair =>
    obtain ⟨b, a⟩ := pair
    simp only [hs] at h
    split at h
    · simp at h
    · simp only [Option.some.injEq, Prod.mk.injEq] at h
      simp [← h.1, ← h.2]

/-- Whatever splits is the key of its two parts. -/
theorem join_of_split {key org repo : String} (h : split? key = some (org, repo)) :
    join org repo = key := by
  have hkey := (splitLast_eq_some_iff.1 (splitLast_of_split h)).1
  apply String.toList_inj.1
  simp [join, hkey]

/-- The repository that a key splits off holds no slash. -/
theorem slash_not_mem_of_split {key org repo : String} (h : split? key = some (org, repo)) :
    '/' ∉ repo.toList := (splitLast_eq_some_iff.1 (splitLast_of_split h)).2

/-- A key splits back into its parts when neither is empty and the repository holds no slash. -/
theorem split_join {org repo : String} (horg : org ≠ "") (hrepo : repo ≠ "")
    (hslash : '/' ∉ repo.toList) : split? (join org repo) = some (org, repo) := by
  have hs : splitLast (join org repo).toList = some (org.toList, repo.toList) :=
    splitLast_eq_some_iff.2 ⟨by simp [join], hslash⟩
  have horg' : org.toList ≠ [] := fun h => horg (String.toList_inj.1 (by simpa using h))
  have hrepo' : repo.toList ≠ [] := fun h => hrepo (String.toList_inj.1 (by simpa using h))
  simp [split?, hs, horg', hrepo']

/-- **What a key splits into**: the two sides of its last slash, when neither is empty. -/
theorem split_eq_some_iff {key org repo : String} :
    split? key = some (org, repo) ↔
      key = join org repo ∧ org ≠ "" ∧ repo ≠ "" ∧ '/' ∉ repo.toList := by
  constructor
  · intro h
    have hempty : ∀ {t : String}, t = "" → t.toList = [] := fun ht => by rw [ht]; rfl
    have hsides : org ≠ "" ∧ repo ≠ "" := by
      have hsplit := h
      unfold split? at hsplit
      rw [splitLast_of_split h] at hsplit
      refine ⟨fun horg => ?_, fun hrepo => ?_⟩
      · simp [hempty horg] at hsplit
      · simp [hempty hrepo] at hsplit
    exact ⟨(join_of_split h).symm, hsides.1, hsides.2, slash_not_mem_of_split h⟩
  · rintro ⟨rfl, horg, hrepo, hslash⟩
    exact split_join horg hrepo hslash

/-- The key of a repository splits, be it elsewhere, unless the repository ends in a slash. -/
theorem exists_split_join_iff {org repo : String} (horg : org ≠ "") (hrepo : repo ≠ "") :
    (∃ pair, split? (join org repo) = some pair) ↔ repo.toList.getLast? ≠ some '/' := by
  have horg' : org.toList ≠ [] := fun h => horg (String.toList_inj.1 (by simpa using h))
  have hrepo' : repo.toList ≠ [] := fun h => hrepo (String.toList_inj.1 (by simpa using h))
  cases hs : splitLast repo.toList with
  | none =>
    -- the slash between the two is the last one
    have hno := splitLast_eq_none_iff.1 hs
    have hlast : repo.toList.getLast? ≠ some '/' := fun h => hno (List.mem_of_getLast? h)
    exact ⟨fun _ => hlast, fun _ => ⟨_, split_join horg hrepo hno⟩⟩
  | some pair =>
    obtain ⟨before, after⟩ := pair
    obtain ⟨heq, hno⟩ := splitLast_eq_some_iff.1 hs
    -- the organisation stands before the last slash, so only the other side can be empty
    have hjoin : splitLast (join org repo).toList = some (org.toList ++ '/' :: before, after) :=
      splitLast_eq_some_iff.2 ⟨by simp [join, heq], hno⟩
    have hlast : repo.toList.getLast? = some '/' ↔ after = [] := by
      rw [heq]
      cases after with
      | nil => simp
      | cons c cs =>
        have hne : (c :: cs).getLast? ≠ some '/' := fun h => hno (List.mem_of_getLast? h)
        simpa using hne
    rw [Ne, hlast]
    unfold split?
    rw [hjoin]
    cases after with
    | nil => simp
    | cons c cs => simp

end SchedulerPolicy.RepoKey
