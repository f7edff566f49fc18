import SchedulerPolicy.Resolution.GitUrl
import SchedulerPolicy.Proofs.Text.Trimming

/-!
# The readings of a URL

A URL does not say which of its parts are present. `git@host` could be a host, and `:22/` the start
of a path. The readings are tried in a fixed order, which makes each optional part a choice between
two (`parse?_eq`), so of a text it has to be shown that no reading before the intended one makes
sense of it. Only one gets far: in `git@host:22/repo` the number could belong to the host, and it
fails because one name is left for the path (`behindNumber_of_scp`). With a further name behind it
would succeed, and the text names another repository.

What a path names is settled by the path alone (`ofPath?_eq_some_iff`). Whatever the reading, the
path is the end of the text (`exists_path_of_fromScheme`).
-/

namespace SchedulerPolicy.GitUrl

/-! ### The readings as alternatives -/

/-- What is read behind the number of a host. -/
def behindNumber (cs : List Char) : Option (String × String) := (afterSeparator? cs).bind ofPath?

/-- What is read behind a host, with a number or without. -/
def behindHost (cs : List Char) : Option (String × String) :=
  ((afterNumber? cs).bind behindNumber).or (behindNumber cs)

/-- What is read from a host on. -/
def fromHost (cs : List Char) : Option (String × String) := (afterHost? cs).bind behindHost

/-- What is read with a user or without. -/
def fromUser (cs : List Char) : Option (String × String) :=
  ((afterUser? cs).bind fromHost).or (fromHost cs)

/-- What is read with a scheme or without. -/
def fromScheme (cs : List Char) : Option (String × String) :=
  ((afterScheme? cs).bind fromUser).or (fromUser cs)

section Alternatives

variable {α : Type} {f : List Char → Option α} {g : List Char → List (List Char)}

theorem findSome?_flatMap_orSkip (after? : Option (List Char)) (cs : List Char) :
    ((orSkip after? cs).flatMap g).findSome? f =
      (after?.bind fun after => (g after).findSome? f).or ((g cs).findSome? f) := by
  cases after? with
  | none =>
    change ([cs].flatMap g).findSome? f = _
    rw [List.flatMap_singleton, Option.bind_none, Option.none_or]
  | some after =>
    change ([after, cs].flatMap g).findSome? f = _
    rw [List.flatMap_cons, List.flatMap_singleton, List.findSome?_append]
    rfl

theorem findSome?_toList (x : Option (List Char)) : x.toList.findSome? f = x.bind f := by
  cases x with
  | none => rfl
  | some cs =>
    rw [Option.toList_some, List.findSome?_singleton]
    rfl

theorem findSome?_flatMap_toList (x : Option (List Char)) :
    (x.toList.flatMap g).findSome? f = x.bind fun cs => (g cs).findSome? f := by
  cases x with
  | none => rfl
  | some cs =>
    rw [Option.toList_some, List.flatMap_singleton]
    rfl

end Alternatives

/-- Every optional part is a choice of its own. -/
theorem parse?_eq (url : String) : parse? url = fromScheme (Text.trimChars url.toList) := by
  unfold parse? paths
  simp only [findSome?_flatMap_orSkip, findSome?_flatMap_toList, findSome?_toList]
  rfl

/-! ### The parts of a URL -/

section Parts

variable {part rest : List Char}

theorem afterScheme?_of_scheme (hne : part ≠ [])
    (h : ∀ c ∈ part, ('a' ≤ c ∧ c ≤ 'z') ∨ c = '+') :
    afterScheme? (part ++ ':' :: '/' :: '/' :: rest) = some rest := by
  obtain ⟨c, cs, rfl⟩ := List.exists_cons_of_ne_nil hne
  obtain ⟨htake, hdrop⟩ := Text.takeWhile_dropWhile_append_cons
    (p := fun c => ('a' ≤ c && c ≤ 'z') || c == '+') (c := ':') (by decide)
    (fun b hb => by simpa using h b hb) ('/' :: '/' :: rest)
  simp only [afterScheme?, htake, hdrop]

/-- A user in front, or nothing in the place of one, is no scheme. -/
theorem afterScheme?_of_user (h : '/' ∉ part) : afterScheme? (part ++ '@' :: rest) = none := by
  unfold afterScheme?
  dsimp only
  split
  · next htail =>
    -- the slashes behind the colon would have to be the user's
    rw [Text.dropWhile_append_cons (by decide)] at htail
    have hsubset := (List.dropWhile_suffix
      (fun c => decide ('a' ≤ c) && decide (c ≤ 'z') || c == '+') (l := part)).subset
    generalize part.dropWhile _ = left at htail hsubset
    rcases left with _ | ⟨a, _ | ⟨c, left⟩⟩
    · cases htail
    · cases htail
    · simp only [List.cons_append, List.cons.injEq] at htail
      exact absurd (hsubset (List.mem_cons_of_mem a (htail.2.1 ▸ List.mem_cons_self))) h
  · rfl

theorem afterUser?_of_user (hne : part ≠ []) (h : ∀ c ∈ part, c ≠ '@' ∧ c ≠ '/') :
    afterUser? (part ++ '@' :: rest) = some rest := by
  obtain ⟨c, cs, rfl⟩ := List.exists_cons_of_ne_nil hne
  obtain ⟨htake, hdrop⟩ := Text.takeWhile_dropWhile_append_cons
    (p := fun c => c != '@' && c != '/') (c := '@') (by decide)
    (fun b hb => by simpa using h b hb) rest
  simp only [afterUser?, htake, hdrop]

/-- A slash comes before any user could end. -/
theorem afterUser?_of_slash (h : ∀ c ∈ part, c ≠ '@' ∧ c ≠ '/') :
    afterUser? (part ++ '/' :: rest) = none := by
  obtain ⟨htake, hdrop⟩ := Text.takeWhile_dropWhile_append_cons
    (p := fun c => c != '@' && c != '/') (c := '/') (by decide)
    (fun b hb => by simpa using h b hb) rest
  simp only [afterUser?, htake, hdrop]
  cases part <;> rfl

theorem afterHost?_of_host (hne : part ≠ []) (h : ∀ c ∈ part, c ≠ '/' ∧ c ≠ ':') {c : Char}
    (hc : c = '/' ∨ c = ':') : afterHost? (part ++ c :: rest) = some (c :: rest) := by
  have hstop : (c != '/' && c != ':') = false := by
    rcases hc with rfl | rfl <;> decide
  obtain ⟨b, bs, rfl⟩ := List.exists_cons_of_ne_nil hne
  obtain ⟨htake, hdrop⟩ := Text.takeWhile_dropWhile_append_cons
    (p := fun c => c != '/' && c != ':') hstop (fun b hb => by simpa using h b hb) rest
  simp only [afterHost?, htake, hdrop]

theorem afterNumber?_of_number (hne : part ≠ []) (h : ∀ c ∈ part, c.isDigit = true) {c : Char}
    (hc : c.isDigit = false) : afterNumber? (':' :: (part ++ c :: rest)) = some (c :: rest) := by
  obtain ⟨b, bs, rfl⟩ := List.exists_cons_of_ne_nil hne
  obtain ⟨htake, hdrop⟩ := Text.takeWhile_dropWhile_append_cons hc h rest
  simp only [afterNumber?, htake, hdrop]

end Parts

/-! ### The path -/

/-- What may stand behind the name of a repository. -/
def gitSuffix : List Char := ['.', 'g', 'i', 't']

theorem withoutGitSuffix_append {repo : List Char} (h : repo ≠ []) :
    withoutGitSuffix (repo ++ gitSuffix) = repo := by
  -- the suffix is looked for from the end, and a character is left in front of it
  obtain ⟨c, cs, hrev⟩ := List.exists_cons_of_ne_nil fun hnil => h (List.reverse_eq_nil_iff.1 hnil)
  have hback : (repo ++ gitSuffix).reverse = 't' :: 'i' :: 'g' :: '.' :: c :: cs := by
    rw [List.reverse_append, hrev]
    rfl
  simp only [withoutGitSuffix, hback]
  rw [← hrev, List.reverse_reverse]

/-- A suffix is taken off, and something is left, or everything stays. -/
theorem withoutGitSuffix_cases (repo : List Char) :
    withoutGitSuffix repo = repo ∨
      withoutGitSuffix repo ≠ [] ∧ repo = withoutGitSuffix repo ++ gitSuffix := by
  unfold withoutGitSuffix
  split
  · next c rest hrev =>
    refine Or.inr ⟨List.reverse_ne_nil_iff.2 (List.cons_ne_nil c rest), ?_⟩
    rw [← List.reverse_reverse repo, hrev]
    simp [gitSuffix]
  · exact Or.inl rfl

theorem withoutGitSuffix_of_not_suffix {repo : List Char} (h : ¬ gitSuffix <:+ repo) :
    withoutGitSuffix repo = repo :=
  (withoutGitSuffix_cases repo).resolve_right fun hcut => h ⟨_, hcut.2.symm⟩

theorem withoutGitSuffix_ne_nil {repo : List Char} (h : repo ≠ []) :
    withoutGitSuffix repo ≠ [] := by
  rcases withoutGitSuffix_cases repo with hsame | ⟨hne, -⟩
  · rwa [hsame]
  · exact hne

theorem withoutGitSuffix_subset (repo : List Char) : withoutGitSuffix repo ⊆ repo := by
  rcases withoutGitSuffix_cases repo with hsame | ⟨-, hcut⟩
  · rw [hsame]
    exact List.Subset.refl _
  · intro c hc
    rw [hcut]
    exact List.mem_append_left _ hc

/-- Names joined by slashes, with a slash behind them or without. -/
def pathChars (names : List (List Char)) (slash : Bool) : List Char :=
  Text.joinSegments names ++ if slash then ['/'] else []

/-- The names of a path: its segments, but for an empty one at the end. -/
def pathNames (path : List Char) : List (List Char) :=
  if (Text.segments path).getLast? = some [] then (Text.segments path).dropLast
  else Text.segments path

/-- The last of at least two names is the repository. -/
theorem ofPath?_of_pathNames {path : List Char} {org : List (List Char)} {repo : List Char}
    (h : pathNames path = org ++ [repo]) :
    ofPath? path =
      if org.isEmpty || (org ++ [repo]).any List.isEmpty then none
      else some (String.ofList (Text.joinSegments org), String.ofList (withoutGitSuffix repo)) := by
  unfold pathNames at h
  simp only [ofPath?, h, List.reverse_append, List.reverse_cons, List.reverse_nil, List.nil_append,
    List.singleton_append, List.isEmpty_reverse, List.reverse_reverse]

variable {names : List (List Char)} {slash : Bool}

theorem pathNames_pathChars (hne : names ≠ []) (h : ∀ s ∈ names, s ≠ [] ∧ '/' ∉ s) :
    pathNames (pathChars names slash) = names := by
  have hsegments : Text.segments (Text.joinSegments names) = names :=
    Text.segments_joinSegments hne fun s hs => (h s hs).2
  unfold pathNames pathChars
  cases slash with
  | false =>
    -- no name is empty, so the last one is none to drop
    have hlast : names.getLast? ≠ some [] := fun hl => (h [] (List.mem_of_getLast? hl)).1 rfl
    rw [if_neg Bool.false_ne_true, List.append_nil, hsegments, if_neg hlast]
  | true =>
    rw [if_pos rfl, Text.segments_append_slash, hsegments]
    exact (if_pos List.getLast?_concat).trans List.dropLast_concat

theorem pathChars_pathNames (path : List Char) (hne : pathNames path ≠ []) :
    ∃ slash, path = pathChars (pathNames path) slash := by
  have hjoin := Text.joinSegments_segments path
  unfold pathNames at hne ⊢
  split at hne
  · next hlast =>
    rw [if_pos hlast]
    -- a slash stands in front of the empty segment at the end
    refine ⟨true, ?_⟩
    -- the names in front of it are not none, so they are joined to it by that slash
    obtain ⟨front, hfront⟩ := List.getLast?_eq_some_iff.1 hlast
    rw [hfront, List.dropLast_concat] at hne ⊢
    rw [hfront, Text.joinSegments_append hne (List.cons_ne_nil _ _)] at hjoin
    exact hjoin.symm
  · next hlast =>
    rw [if_neg hlast]
    exact ⟨false, by rw [pathChars, hjoin, if_neg Bool.false_ne_true, List.append_nil]⟩

theorem slash_not_mem_of_mem_pathNames {path s : List Char} (h : s ∈ pathNames path) : '/' ∉ s := by
  unfold pathNames at h
  split at h
  · exact Text.slash_not_mem_of_mem_segments (List.dropLast_subset _ h)
  · exact Text.slash_not_mem_of_mem_segments h

/-- **What a path names**: the last of two or more names without a suffix, in the organisation that
the others make up. -/
theorem ofPath?_eq_some_iff {path : List Char} {r : String × String} :
    ofPath? path = some r ↔
      ∃ (org : List (List Char)) (repo : List Char) (slash : Bool),
        org ≠ [] ∧ (∀ s ∈ org ++ [repo], s ≠ [] ∧ '/' ∉ s) ∧
        path = pathChars (org ++ [repo]) slash ∧
        r = (String.ofList (Text.joinSegments org), String.ofList (withoutGitSuffix repo)) := by
  constructor
  · intro h
    obtain hnil | ⟨org, repo, hnames⟩ := List.eq_nil_or_concat (pathNames path)
    · -- without names there is no repository
      unfold pathNames at hnil
      simp [ofPath?, hnil] at h
    · rw [List.concat_eq_append] at hnames
      rw [ofPath?_of_pathNames hnames] at h
      split at h
      · cases h
      · -- no name is empty, and the organisation has one
        next hcond =>
        rw [Bool.or_eq_true, not_or, List.isEmpty_iff, List.any_eq_true, not_exists] at hcond
        have hne : pathNames path ≠ [] := by simp [hnames]
        obtain ⟨slash, hpath⟩ := pathChars_pathNames path hne
        refine ⟨org, repo, slash, hcond.1, fun s hs => ⟨?_, ?_⟩, hnames ▸ hpath,
          (Option.some.inj h).symm⟩
        · rintro rfl
          exact hcond.2 [] ⟨hs, rfl⟩
        · exact slash_not_mem_of_mem_pathNames (hnames ▸ hs)
  · rintro ⟨org, repo, slash, horg, hall, rfl, rfl⟩
    have hnames : pathNames (pathChars (org ++ [repo]) slash) = org ++ [repo] :=
      pathNames_pathChars (by simp) hall
    have hcond : ¬ (org.isEmpty || (org ++ [repo]).any List.isEmpty) = true := by
      rw [Bool.or_eq_true, not_or, List.isEmpty_iff, List.any_eq_true, not_exists]
      exact ⟨horg, fun s hs => (hall s hs.1).1 (List.isEmpty_iff.1 hs.2)⟩
    rw [ofPath?_of_pathNames hnames, if_neg hcond]

/-- One name is not enough. -/
theorem ofPath?_singleton {repo : List Char} (hne : repo ≠ []) (hslash : '/' ∉ repo) :
    ofPath? (pathChars [repo] slash) = none := by
  have hnames : pathNames (pathChars [repo] slash) = [] ++ [repo] :=
    pathNames_pathChars (by simp) (by simpa using ⟨hne, hslash⟩)
  rw [ofPath?_of_pathNames hnames, if_pos (by rfl)]

theorem pathChars_cons (s : List Char) (hne : names ≠ []) :
    pathChars (s :: names) slash = s ++ '/' :: pathChars names slash := by
  obtain ⟨t, rest, rfl⟩ := List.exists_cons_of_ne_nil hne
  unfold pathChars
  change (s ++ '/' :: Text.joinSegments (t :: rest)) ++ _ = _
  rw [List.append_assoc, List.cons_append]

/-- Behind the repository of a path stands nothing but a suffix and a slash. -/
theorem exists_ending {org : List (List Char)} (horg : org ≠ []) (repo : List Char) (slash : Bool) :
    ∃ ending ∈ ["", ".git", "/", ".git/"],
      pathChars (org ++ [repo]) slash =
        Text.joinSegments org ++ '/' :: (withoutGitSuffix repo ++ ending.toList) := by
  have hjoin : Text.joinSegments (org ++ [repo]) = Text.joinSegments org ++ '/' :: repo :=
    Text.joinSegments_append horg (List.cons_ne_nil _ _)
  unfold pathChars
  rw [hjoin]
  -- with a suffix or without, and with a slash behind it or without
  rcases withoutGitSuffix_cases repo with hsame | ⟨-, hcut⟩
  · rw [hsame]
    cases slash with
    | false => exact ⟨"", by simp, by simp⟩
    | true => exact ⟨"/", by simp, by simp⟩
  · generalize withoutGitSuffix repo = name at hcut ⊢
    subst hcut
    cases slash with
    | false => exact ⟨".git", by simp, by simp [gitSuffix]⟩
    | true => exact ⟨".git/", by simp, by simp [gitSuffix]⟩

/-! ### Behind the address -/

section Readings

variable {path host user : List Char} {r : String × String}

theorem behindNumber_separator (h : ofPath? path = some r) {c : Char} (hc : c = '/' ∨ c = ':') :
    behindNumber (c :: path) = some r := by
  rcases hc with rfl | rfl <;> exact h

theorem behindHost_slash (h : ofPath? path = some r) : behindHost ('/' :: path) = some r := by
  unfold behindHost
  rw [behindNumber_separator h (.inl rfl)]
  rfl

theorem behindHost_number (h : ofPath? path = some r) {number : List Char} (hne : number ≠ [])
    (hdigits : ∀ c ∈ number, c.isDigit = true) :
    behindHost (':' :: (number ++ '/' :: path)) = some r := by
  unfold behindHost
  rw [afterNumber?_of_number hne hdigits (by decide), Option.bind_some,
    behindNumber_separator h (.inl rfl), Option.some_or]

/-- Behind a colon, digits at the start of a path lead nowhere when they are taken for a number:
either something other than a slash follows them, or there is one name left. -/
theorem behindNumber_of_scp {seg : List Char} {rest : List (List Char)} {repo : List Char}
    {slash : Bool} (hseg : seg ≠ []) (hplain : ∀ c ∈ seg, c ≠ '/' ∧ c ≠ ':')
    (hrepo : repo ≠ []) (hslash : '/' ∉ repo)
    (hcond : rest = [] ∨ ∃ c ∈ seg, c.isDigit = false) :
    (afterNumber? (':' :: pathChars (seg :: (rest ++ [repo])) slash)).bind behindNumber = none := by
  rw [pathChars_cons seg (by simp)]
  by_cases hall : ∀ c ∈ seg, c.isDigit = true
  · -- the whole name is taken for a number
    obtain rfl : rest = [] := hcond.resolve_right fun ⟨c, hc, hdigit⟩ => by
      simp [hall c hc] at hdigit
    rw [afterNumber?_of_number hseg hall (by decide), Option.bind_some]
    exact ofPath?_singleton hrepo hslash
  · -- a character of the name ends the digits
    have hdrop : seg.dropWhile Char.isDigit ≠ [] := fun hnil =>
      hall (List.dropWhile_eq_nil_iff.1 hnil)
    obtain ⟨d, more, hd⟩ := List.exists_cons_of_ne_nil hdrop
    have hdigit : d.isDigit = false := by
      have hhead := List.head_dropWhile_not Char.isDigit (l := seg) hdrop
      simpa [hd] using hhead
    have hmem : d ∈ seg := (List.dropWhile_suffix Char.isDigit).subset (hd ▸ List.mem_cons_self)
    -- it is no separator, so nothing is read behind the digits
    have hstop : ∀ cs, behindNumber (d :: cs) = none := by
      intro cs
      unfold behindNumber afterSeparator?
      split
      · next heq => exact absurd (List.cons.inj heq).1 (hplain d hmem).1
      · next heq => exact absurd (List.cons.inj heq).1 (hplain d hmem).2
      · rfl
    have hseg : seg = seg.takeWhile Char.isDigit ++ d :: more := by
      rw [← hd, List.takeWhile_append_dropWhile]
    rw [hseg, List.append_assoc, List.cons_append]
    -- there is a number only when a digit comes first
    by_cases hnone : seg.takeWhile Char.isDigit = []
    · rw [hnone, List.nil_append]
      simp [afterNumber?, hdigit]
    · have hdigits : ∀ c ∈ seg.takeWhile Char.isDigit, c.isDigit = true :=
        List.all_eq_true.1 List.all_takeWhile
      rw [afterNumber?_of_number hnone hdigits hdigit, Option.bind_some, hstop]

theorem behindHost_colon (h : ofPath? path = some r)
    (hnumber : (afterNumber? (':' :: path)).bind behindNumber = none) :
    behindHost (':' :: path) = some r := by
  unfold behindHost
  rw [hnumber, Option.none_or, behindNumber_separator h (.inr rfl)]

/-! ### From the address on -/

theorem fromHost_of_host {c : Char} {rest : List Char} (hne : host ≠ [])
    (hhost : ∀ b ∈ host, b ≠ '/' ∧ b ≠ ':') (hc : c = '/' ∨ c = ':')
    (h : behindHost (c :: rest) = some r) : fromHost (host ++ c :: rest) = some r := by
  unfold fromHost
  rw [afterHost?_of_host hne hhost hc, Option.bind_some, h]

theorem fromUser_of_user {rest : List Char} (hne : user ≠ [])
    (huser : ∀ c ∈ user, c ≠ '@' ∧ c ≠ '/') (h : fromHost rest = some r) :
    fromUser (user ++ '@' :: rest) = some r := by
  unfold fromUser
  rw [afterUser?_of_user hne huser, Option.bind_some, h, Option.some_or]

/-- Without an at sign before the first slash there is no user. -/
theorem fromUser_of_slash {front rest : List Char} (hfront : ∀ c ∈ front, c ≠ '@' ∧ c ≠ '/')
    (h : fromHost (front ++ '/' :: rest) = some r) : fromUser (front ++ '/' :: rest) = some r := by
  unfold fromUser
  rw [afterUser?_of_slash hfront, Option.bind_none, Option.none_or, h]

theorem fromScheme_of_scheme {scheme rest : List Char} (hne : scheme ≠ [])
    (hscheme : ∀ c ∈ scheme, ('a' ≤ c ∧ c ≤ 'z') ∨ c = '+') (h : fromUser rest = some r) :
    fromScheme (scheme ++ ':' :: '/' :: '/' :: rest) = some r := by
  unfold fromScheme
  rw [afterScheme?_of_scheme hne hscheme, Option.bind_some, h, Option.some_or]

/-- A user may be missing in front of the at sign, which then counts as part of the host. -/
theorem fromScheme_of_scp (huser : ∀ c ∈ user, c ≠ '@' ∧ c ≠ '/') (hne : host ≠ [])
    (hhost : ∀ b ∈ host, b ≠ '/' ∧ b ≠ ':') (h : behindHost (':' :: path) = some r) :
    fromScheme (user ++ '@' :: (host ++ ':' :: path)) = some r := by
  unfold fromScheme
  rw [afterScheme?_of_user fun hmem => (huser '/' hmem).2 rfl, Option.bind_none, Option.none_or]
  by_cases hnil : user = []
  · subst hnil
    -- no user is read in front of the at sign, so the host begins with it
    have hat : fromHost (('@' :: host) ++ ':' :: path) = some r := by
      refine fromHost_of_host (List.cons_ne_nil _ _) (fun b hb => ?_) (.inr rfl) h
      rcases List.mem_cons.1 hb with rfl | hb
      · decide
      · exact hhost b hb
    unfold fromUser
    rw [List.nil_append]
    exact (congrArg (Option.or none) hat).trans (Option.none_or)
  · exact fromUser_of_user hnil huser (fromHost_of_host hne hhost (.inr rfl) h)

end Readings

/-! ### What stands at the end -/

section Suffixes

variable {cs rest : List Char} {r : String × String}

theorem suffix_of_afterScheme? (h : afterScheme? cs = some rest) : rest <:+ cs := by
  unfold afterScheme? at h
  dsimp only at h
  split at h
  · next behind _ hdrop =>
    rw [← Option.some.inj h]
    have hbehind : behind <:+ ':' :: '/' :: '/' :: behind := ⟨[':', '/', '/'], rfl⟩
    exact hbehind.trans (hdrop ▸ List.dropWhile_suffix _)
  · cases h

theorem suffix_of_afterUser? (h : afterUser? cs = some rest) : rest <:+ cs := by
  unfold afterUser? at h
  dsimp only at h
  split at h
  · next behind _ hdrop =>
    rw [← Option.some.inj h]
    exact (List.suffix_cons '@' behind).trans (hdrop ▸ List.dropWhile_suffix _)
  · cases h

theorem suffix_of_afterHost? (h : afterHost? cs = some rest) : rest <:+ cs := by
  unfold afterHost? at h
  dsimp only at h
  split at h
  · cases h
  · exact Option.some.inj h ▸ List.dropWhile_suffix _

theorem suffix_of_afterNumber? (h : afterNumber? cs = some rest) : rest <:+ cs := by
  unfold afterNumber? at h
  split at h
  · split at h
    · cases h
    · exact Option.some.inj h ▸ (List.dropWhile_suffix _).trans (List.suffix_cons _ _)
  · cases h

theorem suffix_of_afterSeparator? (h : afterSeparator? cs = some rest) : rest <:+ cs := by
  unfold afterSeparator? at h
  split at h
  · exact Option.some.inj h ▸ List.suffix_cons _ _
  · exact Option.some.inj h ▸ List.suffix_cons _ _
  · cases h

/-- What is read with an optional part or without is read from what follows the part or from all. -/
theorem exists_of_or_bind {after? : List Char → Option (List Char)}
    {next : List Char → Option (String × String)}
    (h : ((after? cs).bind next).or (next cs) = some r) :
    (∃ rest, after? cs = some rest ∧ next rest = some r) ∨ next cs = some r := by
  rcases Option.or_eq_some_iff.1 h with hbind | ⟨-, hskip⟩
  · exact Or.inl (Option.bind_eq_some_iff.1 hbind)
  · exact Or.inr hskip

/-- **What is read is named by the end of the text.** -/
theorem exists_path_of_fromScheme (h : fromScheme cs = some r) :
    ∃ path, path <:+ cs ∧ ofPath? path = some r := by
  -- each reading goes on from an end of what the one before it was given
  have number : ∀ {cs}, behindNumber cs = some r → ∃ path, path <:+ cs ∧ ofPath? path = some r := by
    intro cs h
    obtain ⟨path, hpath, hr⟩ := Option.bind_eq_some_iff.1 h
    exact ⟨path, suffix_of_afterSeparator? hpath, hr⟩
  have host : ∀ {cs}, fromHost cs = some r → ∃ path, path <:+ cs ∧ ofPath? path = some r := by
    intro cs h
    obtain ⟨rest, hrest, hr⟩ := Option.bind_eq_some_iff.1 h
    rcases exists_of_or_bind hr with ⟨rest', hrest', hr⟩ | hr
    · obtain ⟨path, hpath, hr⟩ := number hr
      exact ⟨path, (hpath.trans (suffix_of_afterNumber? hrest')).trans
        (suffix_of_afterHost? hrest), hr⟩
    · obtain ⟨path, hpath, hr⟩ := number hr
      exact ⟨path, hpath.trans (suffix_of_afterHost? hrest), hr⟩
  have user : ∀ {cs}, fromUser cs = some r → ∃ path, path <:+ cs ∧ ofPath? path = some r := by
    intro cs h
    rcases exists_of_or_bind h with ⟨rest, hrest, hr⟩ | hr
    · obtain ⟨path, hpath, hr⟩ := host hr
      exact ⟨path, hpath.trans (suffix_of_afterUser? hrest), hr⟩
    · exact host hr
  rcases exists_of_or_bind h with ⟨rest, hrest, hr⟩ | hr
  · obtain ⟨path, hpath, hr⟩ := user hr
    exact ⟨path, hpath.trans (suffix_of_afterScheme? hrest), hr⟩
  · exact user hr

end Suffixes

end SchedulerPolicy.GitUrl
