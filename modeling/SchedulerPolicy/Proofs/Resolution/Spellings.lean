import SchedulerPolicy.RepoKey
import SchedulerPolicy.Proofs.Resolution.Readings

/-!
# Spellings of a repository's URL

Where a repository is hosted may be written in many ways: with one of two kinds of address in front
(`Address`), and with or without `.git`, a slash and white space at the end. All of them are read as
the one repository (`Address.fromScheme_path`), and whatever is read stands as it is at the end of
the text. The two directions together are `parse?_spelled`.

Behind a colon not every organisation can be spelled (`Address.Admits`): digits there belong to the
address as soon as two more names follow them.
-/

namespace SchedulerPolicy.GitUrl

/-! ### Spellings -/

/-- A part of a URL: not empty, and of characters of one kind. -/
def IsPart (kind : Char → Prop) (s : String) : Prop := s ≠ "" ∧ ∀ c ∈ s.toList, kind c

/-- A name in a path. -/
def IsName (s : String) : Prop :=
  IsPart (fun c => c ≠ '/' ∧ c ≠ ':' ∧ c ≠ '@' ∧ Text.isBlankChar c = false) s

/-- Who is asked for a repository, in front of the path. -/
inductive Address where
  /-- `scheme://user@host:22/`, where the user and the number may be absent. -/
  | url (scheme : String) (user : Option String) (host : String) (number : Option String)
  /-- `user@host:` -/
  | scp (user host : String)

namespace Address

/-- The address as it is written. -/
def text : Address → String
  | url scheme user host number =>
    scheme ++ "://" ++ user.elim "" (· ++ "@") ++ host ++ number.elim "" (":" ++ ·) ++ "/"
  | scp user host => user ++ "@" ++ host ++ ":"

/-- Whether each part of an address is what it should be. -/
def WellFormed : Address → Prop
  | url scheme user host number =>
    IsPart (fun c => ('a' ≤ c ∧ c ≤ 'z') ∨ c = '+') scheme ∧
      (∀ u ∈ user, IsPart (fun c => c ≠ '@' ∧ c ≠ '/') u) ∧
      IsPart (fun c => c ≠ '/' ∧ c ≠ ':' ∧ c ≠ '@') host ∧
      ∀ n ∈ number, IsPart (fun c => c.isDigit = true) n
  | scp user host =>
    IsPart (fun c => c ≠ '@' ∧ c ≠ '/') user ∧ IsPart (fun c => c ≠ '/' ∧ c ≠ ':' ∧ c ≠ '@') host

/-- Whether an organisation can follow an address: directly behind a colon, a first name of digits
is taken for a number when another name of the organisation follows it. -/
def Admits (org : List String) : Address → Prop
  | url .. => True
  | scp .. => org.length = 1 ∨ ∃ first ∈ org.head?, ∃ c ∈ first.toList, c.isDigit = false

end Address

/-- An organisation and a repository in it, each name on its own. -/
structure Location where
  org : List String
  repo : String

namespace Location

/-- The name of the organisation. -/
def orgName (l : Location) : String := "/".intercalate l.org

/-- A location has an organisation of proper names and a repository of a proper name that does not
end like a suffix. -/
structure WellFormed (l : Location) : Prop where
  org_ne_nil : l.org ≠ []
  org : ∀ s ∈ l.org, IsName s
  repo : IsName l.repo
  repo_suffix : ¬ ".git".toList <:+ l.repo.toList

/-- The path of a location, with `.git` and with a slash at the end or without. -/
def path (l : Location) (git slash : Bool) : String :=
  l.orgName ++ "/" ++ l.repo ++ (if git then ".git" else "") ++ (if slash then "/" else "")

end Location

/-! ### Spellings are read -/

theorem IsPart.toList_ne_nil {kind : Char → Prop} {s : String} (h : IsPart kind s) :
    s.toList ≠ [] := fun hnil => h.1 (String.toList_eq_nil_iff.1 hnil)

theorem intercalate_slash (ss : List (List Char)) :
    ['/'].intercalate ss = Text.joinSegments ss := by
  induction ss with
  | nil => rfl
  | cons s rest ih =>
    cases rest with
    | nil => exact List.intercalate_singleton
    | cons r rest =>
      rw [List.intercalate_cons_cons, ih]
      simp [Text.joinSegments]

theorem ofList_joinSegments (ss : List (List Char)) :
    String.ofList (Text.joinSegments ss) = "/".intercalate (ss.map String.ofList) := by
  have hmap : (ss.map String.ofList).map String.toList = ss := by simp
  apply String.toList_inj.1
  rw [String.toList_ofList, String.toList_intercalate, hmap]
  exact (intercalate_slash ss).symm

namespace Location

variable {l : Location} {git slash : Bool}

theorem toList_orgName (l : Location) :
    l.orgName.toList = Text.joinSegments (l.org.map String.toList) := by
  unfold orgName
  rw [String.toList_intercalate]
  exact intercalate_slash _

/-- The last name of a path. -/
def lastName (l : Location) (git : Bool) : List Char :=
  l.repo.toList ++ if git then gitSuffix else []

theorem toList_path (h : l.org ≠ []) (git slash : Bool) :
    (l.path git slash).toList =
      pathChars (l.org.map String.toList ++ [l.lastName git]) slash := by
  have horg : l.org.map String.toList ≠ [] := by simpa using h
  unfold path pathChars lastName
  -- with a suffix or without, and with a slash or without, in four ways
  rw [Text.joinSegments_append horg (List.cons_ne_nil _ _), ← toList_orgName]
  cases git <;> cases slash <;> simp [Text.joinSegments, gitSuffix]

namespace WellFormed

theorem isName_segments (h : l.WellFormed) :
    ∀ s ∈ l.org.map String.toList ++ [l.lastName git], s ≠ [] ∧ '/' ∉ s := by
  have hrepo := h.repo
  intro s hs
  -- a name of the organisation, or the last name, where the suffix may stand
  rcases List.mem_append.1 hs with hs | hs
  · obtain ⟨name, hname, rfl⟩ := List.mem_map.1 hs
    exact ⟨(h.org name hname).toList_ne_nil, fun hmem => ((h.org name hname).2 '/' hmem).1 rfl⟩
  · rw [List.mem_singleton.1 hs]
    unfold lastName
    refine ⟨fun hnil => hrepo.toList_ne_nil (List.append_eq_nil_iff.1 hnil).1, fun hmem => ?_⟩
    rcases List.mem_append.1 hmem with hmem | hmem
    · exact (hrepo.2 '/' hmem).1 rfl
    · cases git <;> revert hmem <;> decide

theorem withoutGitSuffix_lastName (h : l.WellFormed) :
    withoutGitSuffix (l.lastName git) = l.repo.toList := by
  unfold lastName
  cases git with
  | true => exact withoutGitSuffix_append h.repo.toList_ne_nil
  | false =>
    rw [if_neg Bool.false_ne_true, List.append_nil]
    exact withoutGitSuffix_of_not_suffix h.repo_suffix

/-- The path of a location names the location. -/
theorem ofPath?_path (h : l.WellFormed) (git slash : Bool) :
    ofPath? (l.path git slash).toList = some (l.orgName, l.repo) := by
  refine ofPath?_eq_some_iff.2 ⟨_, _, slash, by simpa using h.org_ne_nil, h.isName_segments,
    toList_path h.org_ne_nil git slash, ?_⟩
  rw [h.withoutGitSuffix_lastName, ← toList_orgName, String.ofList_toList, String.ofList_toList]

/-- A path does not end in white space. -/
theorem exists_path_eq_concat (h : l.WellFormed) (git slash : Bool) :
    ∃ cs c, (l.path git slash).toList = cs ++ [c] ∧ Text.isBlankChar c = false := by
  obtain ⟨front, last, hrepo⟩ :=
    (List.eq_nil_or_concat l.repo.toList).resolve_left h.repo.toList_ne_nil
  rw [List.concat_eq_append] at hrepo
  have hlast : Text.isBlankChar last = false :=
    (h.repo.2 last (hrepo ▸ List.mem_append_right _ List.mem_cons_self)).2.2.2
  unfold path
  -- the last character is a slash, the end of the suffix, or that of the repository
  cases slash with
  | true => exact ⟨(l.path git false).toList, '/', by simp [path], by decide⟩
  | false =>
    cases git with
    | true => exact ⟨(l.orgName ++ "/" ++ l.repo ++ ".gi").toList, 't', by simp, by decide⟩
    | false => exact ⟨(l.orgName ++ "/").toList ++ front, last, by simp [hrepo], hlast⟩

end WellFormed

end Location

/-- The characters of a scheme are not blank. -/
theorem isBlankChar_of_scheme {c : Char} (h : ('a' ≤ c ∧ c ≤ 'z') ∨ c = '+') :
    Text.isBlankChar c = false := by
  rcases h with ⟨hlow, hhigh⟩ | rfl
  · -- no blank character has its code among those of small letters
    have hrange : 97 ≤ c.toNat ∧ c.toNat ≤ 122 := ⟨hlow, hhigh⟩
    unfold Text.isBlankChar
    generalize c.toNat = n at hrange
    simp
    omega
  · decide

namespace Address

variable {path : List Char} {r : String × String}

theorem fromScheme_url {scheme host : String} {user number : Option String}
    (ha : (url scheme user host number).WellFormed) (h : ofPath? path = some r) :
    fromScheme ((url scheme user host number).text.toList.dropWhile Text.isBlankChar ++ path) =
      some r := by
  obtain ⟨hscheme, huser, hhost, hnumber⟩ := ha
  have hplain : ∀ c ∈ host.toList, c ≠ '/' ∧ c ≠ ':' := fun c hc =>
    ⟨(hhost.2 c hc).1, (hhost.2 c hc).2.1⟩
  -- from the host on
  have hfromHost : fromHost
      (host.toList ++ ((number.elim "" (":" ++ ·)).toList ++ '/' :: path)) = some r := by
    cases number with
    | none => exact fromHost_of_host hhost.toList_ne_nil hplain (.inl rfl) (behindHost_slash h)
    | some n =>
      have hn := hnumber n rfl
      have hbehind := behindHost_number h hn.toList_ne_nil hn.2
      simpa using fromHost_of_host hhost.toList_ne_nil hplain (.inr rfl) hbehind
  -- from the user on
  have hfromUser : fromUser ((user.elim "" (· ++ "@")).toList ++
      (host.toList ++ ((number.elim "" (":" ++ ·)).toList ++ '/' :: path))) = some r := by
    cases user with
    | some u =>
      have hu := huser u rfl
      simpa using fromUser_of_user hu.toList_ne_nil hu.2 hfromHost
    | none =>
      -- a host and its number hold no at sign, so the first slash comes before any
      have hfront : ∀ c ∈ host.toList ++ (number.elim "" (":" ++ ·)).toList, c ≠ '@' ∧ c ≠ '/' := by
        intro c hc
        rcases List.mem_append.1 hc with hc | hc
        · exact ⟨(hhost.2 c hc).2.2, (hhost.2 c hc).1⟩
        · cases number with
          | none => cases hc
          | some n =>
            have hdigit : c = ':' ∨ c.isDigit = true := by
              simp only [Option.elim_some, String.toList_append, List.mem_append] at hc
              exact hc.imp (by simp) ((hnumber n rfl).2 c)
            constructor <;> rintro rfl <;> revert hdigit <;> decide
      rw [← List.append_assoc] at hfromHost
      simpa using fromUser_of_slash hfront hfromHost
  have htext : (url scheme user host number).text.toList = scheme.toList ++ ':' :: '/' :: '/' ::
      ((user.elim "" (· ++ "@")).toList ++
        (host.toList ++ ((number.elim "" (":" ++ ·)).toList ++ ['/']))) := by
    simp [text]
  obtain ⟨c, cs, hc⟩ := List.exists_cons_of_ne_nil hscheme.toList_ne_nil
  have hblank : ¬ Text.isBlankChar c = true := by
    simp [isBlankChar_of_scheme (hscheme.2 c (hc ▸ List.mem_cons_self))]
  have hread := fromScheme_of_scheme hscheme.toList_ne_nil hscheme.2 hfromUser
  rw [htext, hc, List.cons_append, List.dropWhile_cons_of_neg hblank]
  rw [hc] at hread
  simpa using hread

theorem fromScheme_scp {user host : String} (ha : (scp user host).WellFormed)
    (h : ofPath? path = some r)
    (hnumber : (afterNumber? (':' :: path)).bind behindNumber = none) :
    fromScheme ((scp user host).text.toList.dropWhile Text.isBlankChar ++ path) = some r := by
  obtain ⟨huser, hhost⟩ := ha
  have htext : (scp user host).text.toList = user.toList ++ '@' :: (host.toList ++ [':']) := by
    simp [text]
  have hbehind : ∀ c ∈ user.toList.dropWhile Text.isBlankChar, c ≠ '@' ∧ c ≠ '/' :=
    fun c hc => huser.2 c ((List.dropWhile_suffix _).subset hc)
  have hread := fromScheme_of_scp hbehind hhost.toList_ne_nil
    (fun c hc => ⟨(hhost.2 c hc).1, (hhost.2 c hc).2.1⟩) (behindHost_colon h hnumber)
  rw [htext, Text.dropWhile_append_cons (by decide)]
  simpa using hread

/-- Behind an address that admits the organisation, the path is read. -/
theorem fromScheme_path {a : Address} {l : Location} (ha : a.WellFormed) (hl : l.WellFormed)
    (hadmits : a.Admits l.org) (git slash : Bool) :
    fromScheme (a.text.toList.dropWhile Text.isBlankChar ++ (l.path git slash).toList) =
      some (l.orgName, l.repo) := by
  have hpath := hl.ofPath?_path git slash
  cases a with
  | url scheme user host number => exact fromScheme_url ha hpath
  | scp user host =>
    refine fromScheme_scp ha hpath ?_
    obtain ⟨first, rest, horg⟩ := List.exists_cons_of_ne_nil hl.org_ne_nil
    have hfirst := hl.org first (horg ▸ List.mem_cons_self)
    have hlast := hl.isName_segments (l.lastName git) (List.mem_append_right _ List.mem_cons_self)
    -- the organisation has one name, or its first name is no number
    have hcond : rest.map String.toList = [] ∨ ∃ c ∈ first.toList, c.isDigit = false := by
      refine hadmits.imp (fun hlength => ?_) fun ⟨name, hname, hdigit⟩ => ?_
      · rw [horg] at hlength
        simpa using hlength
      · rw [horg] at hname
        exact Option.some.inj hname ▸ hdigit
    rw [Location.toList_path hl.org_ne_nil, horg, List.map_cons, List.cons_append]
    exact behindNumber_of_scp hfirst.toList_ne_nil
      (fun c hc => ⟨(hfirst.2 c hc).1, (hfirst.2 c hc).2.1⟩) hlast.1 hlast.2 hcond

theorem dropWhile_text_ne_nil (a : Address) :
    a.text.toList.dropWhile Text.isBlankChar ≠ [] := by
  intro hnil
  have hall := List.dropWhile_eq_nil_iff.1 hnil
  -- each kind of address holds a character that is not blank
  cases a with
  | url scheme user host number => exact absurd (hall '/' (by simp [text])) (by decide)
  | scp user host => exact absurd (hall '@' (by simp [text])) (by decide)

end Address

/-- **Every spelling of a repository is read, and nothing that is malformed.** An address in front
of the path of a location is read as the location, with or without `.git`, a slash and white space
around it. And whatever is read of any text is an organisation of proper segments and a repository
without slashes, which stand joined at the end of the text, but for `.git` and a slash, and which
can be told apart again from their key. -/
theorem parse?_spelled :
    (∀ (a : Address) (l : Location) (git slash : Bool) (before after : String),
      a.WellFormed → l.WellFormed → a.Admits l.org →
      Text.isBlank before = true → Text.isBlank after = true →
      parse? (before ++ a.text ++ l.path git slash ++ after) = some (l.orgName, l.repo)) ∧
    ∀ url org repo : String, parse? url = some (org, repo) →
      (∃ segments : List String, segments ≠ [] ∧ (∀ s ∈ segments, s ≠ "" ∧ '/' ∉ s.toList) ∧
        org = "/".intercalate segments) ∧
      repo ≠ "" ∧ '/' ∉ repo.toList ∧
      (∃ front, ∃ ending ∈ ["", ".git", "/", ".git/"],
        Text.trim url = front ++ org ++ "/" ++ repo ++ ending) ∧
      RepoKey.split? (RepoKey.join org repo) = some (org, repo) := by
  constructor
  · intro a l git slash before after ha hl hadmits hbefore hafter
    obtain ⟨cs, c, hpath, hc⟩ := hl.exists_path_eq_concat git slash
    have htrim := Text.trimChars_between (List.all_eq_true.1 hbefore) (List.all_eq_true.1 hafter)
      (a.text.toList ++ cs) hc
    -- nothing is trimmed but white space around the spelling, and in front of a user
    have hdrop : (a.text.toList ++ cs).dropWhile Text.isBlankChar =
        a.text.toList.dropWhile Text.isBlankChar ++ cs := by
      rw [List.dropWhile_append, if_neg (by simpa using a.dropWhile_text_ne_nil)]
    have hchars : (before ++ a.text ++ l.path git slash ++ after).toList =
        before.toList ++ ((a.text.toList ++ cs) ++ c :: after.toList) := by
      simp [hpath]
    rw [parse?_eq, hchars, htrim, hdrop, List.append_assoc, ← hpath]
    exact Address.fromScheme_path ha hl hadmits git slash
  · intro url org repo h
    rw [parse?_eq] at h
    -- what was read is named by a path at the end of the text
    obtain ⟨path, ⟨front, hfront⟩, hread⟩ := exists_path_of_fromScheme h
    obtain ⟨segments, last, slash, hne, hall, hpath, hpair⟩ := ofPath?_eq_some_iff.1 hread
    obtain ⟨rfl, rfl⟩ := Prod.mk.inj hpair
    have hlast := hall last (List.mem_append_right _ List.mem_cons_self)
    have hrepo : String.ofList (withoutGitSuffix last) ≠ "" := by
      simpa using withoutGitSuffix_ne_nil hlast.1
    have hslash : '/' ∉ (String.ofList (withoutGitSuffix last)).toList := by
      rw [String.toList_ofList]
      exact fun hmem => hlast.2 (withoutGitSuffix_subset last hmem)
    have horg : String.ofList (Text.joinSegments segments) ≠ "" := by
      simpa using Text.joinSegments_ne_nil hne fun s hs => (hall s (List.mem_append_left _ hs)).1
    refine ⟨⟨segments.map String.ofList, by simpa using hne, fun s hs => ?_,
      ofList_joinSegments segments⟩, hrepo, hslash, ?_, RepoKey.split_join horg hrepo hslash⟩
    · obtain ⟨name, hname, rfl⟩ := List.mem_map.1 hs
      simpa using hall name (List.mem_append_left _ hname)
    · obtain ⟨ending, hending, hchars⟩ := exists_ending hne last slash
      refine ⟨String.ofList front, ending, hending, String.toList_inj.1 ?_⟩
      rw [Text.trim, String.toList_ofList, ← hfront, hpath, hchars]
      simp

/-- The number belongs to the host where two names follow it and to the organisation where one
does. -/
theorem parse?_spelled_number_or_name :
    (Address.url "ssh" (some "git") "git.example.com" (some "7999")).WellFormed ∧
      (Location.mk ["acme", "platform"] "env").WellFormed ∧
      parse? " ssh://git@git.example.com:7999/acme/platform/env.git/\n" =
        some ("acme/platform", "env") ∧
      (Address.scp "git" "git.example.com").WellFormed ∧
      (Location.mk ["7999"] "env").WellFormed ∧
      (Address.scp "git" "git.example.com").Admits ["7999"] ∧
      parse? "git@git.example.com:7999/env.git" = some ("7999", "env") ∧
      RepoKey.split? (RepoKey.join "acme/platform" "env") = some ("acme/platform", "env") := by
  have hurl : (Address.url "ssh" (some "git") "git.example.com" (some "7999")).WellFormed := by
    simp [Address.WellFormed, IsPart]
  have hnested : (Location.mk ["acme", "platform"] "env").WellFormed := by
    refine ⟨by simp, ?_, ?_, ?_⟩
    · simp [IsName, IsPart, Text.isBlankChar]
    · simp [IsName, IsPart, Text.isBlankChar]
    · decide
  have hscp : (Address.scp "git" "git.example.com").WellFormed := by
    simp [Address.WellFormed, IsPart]
  have hnumbered : (Location.mk ["7999"] "env").WellFormed := by
    refine ⟨by simp, ?_, ?_, ?_⟩
    · simp [IsName, IsPart, Text.isBlankChar]
    · simp [IsName, IsPart, Text.isBlankChar]
    · decide
  have hadmits : (Address.scp "git" "git.example.com").Admits ["7999"] := Or.inl rfl
  have hread : parse? " ssh://git@git.example.com:7999/acme/platform/env.git/\n" =
      some ("acme/platform", "env") := by
    simpa [Address.text, Location.path, Location.orgName] using
      parse?_spelled.1 _ _ true true " " "\n" hurl hnested trivial (by decide) (by decide)
  have hread' : parse? "git@git.example.com:7999/env.git" = some ("7999", "env") := by
    simpa [Address.text, Location.path, Location.orgName] using
      parse?_spelled.1 _ _ true false "" "" hscp hnumbered hadmits (by decide) (by decide)
  exact ⟨hurl, hnested, hread, hscp, hnumbered, hadmits, hread',
    (parse?_spelled.2 _ _ _ hread).2.2.2.2⟩

end SchedulerPolicy.GitUrl
