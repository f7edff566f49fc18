import SchedulerPolicy.Proofs.Resolution.Announcements

/-!
# Calls to a builder

A builder is called in whatever order the scopes of a repository come up. A call changes the slot of
its own level and no other, so after any calls every slot holds what the calls of its level come to:
the last call counts on the levels of the team, the repository and the injection, and on the level
of the groups all calls count, the later below the earlier (`foldl_call`).

So the chain can be told from the calls alone (`announcedChain`), calls of different levels may
change places (`announcedChain_congr`), and levels never decrease along it (`Sorted.ascends`).
-/

namespace SchedulerPolicy

/-- The last scheduler of a name. -/
def lastNamed? (schedulers : List Scheduler) (name : String) : Option Scheduler :=
  schedulers.reverse.find? (·.name == name)

/-- Nothing of the name comes after the last scheduler of a name. -/
theorem lastNamed?_eq_some_iff {schedulers : List Scheduler} {name : String} {s : Scheduler} :
    lastNamed? schedulers name = some s ↔
      ∃ before after, schedulers = before ++ s :: after ∧ s.name = name ∧
        ∀ later ∈ after, later.name ≠ name := by
  unfold lastNamed?
  rw [List.find?_eq_some_iff_append, beq_iff_eq]
  constructor
  · -- what comes before it in the reversed list comes after it in the list
    rintro ⟨hname, before, after, hsplit, hlater⟩
    rw [List.reverse_eq_append_iff, List.reverse_cons, List.append_assoc,
      List.singleton_append] at hsplit
    refine ⟨after.reverse, before.reverse, hsplit, hname, fun later h => ?_⟩
    have hne := hlater later (List.mem_reverse.1 h)
    rwa [Bool.not_eq_true', beq_eq_false_iff_ne] at hne
  · rintro ⟨before, after, rfl, hname, hlater⟩
    refine ⟨hname, after.reverse, before.reverse, ?_, fun later h => ?_⟩
    · rw [List.reverse_append, List.reverse_cons, List.append_assoc, List.singleton_append]
    · rw [Bool.not_eq_true', beq_eq_false_iff_ne]
      exact hlater later (List.mem_reverse.1 h)

/-- An index finds the last scheduler of a name. -/
theorem SchedulerIndex.get?_ofList (schedulers : List Scheduler) (name : String) :
    (SchedulerIndex.ofList schedulers).get? name = (lastNamed? schedulers name).map (·.spec) := by
  unfold SchedulerIndex.ofList lastNamed?
  rw [Keyed.get?_ofList, ← List.map_reverse]
  -- looking a name up in the pairs of names and specs is finding a scheduler of the name
  induction schedulers.reverse with
  | nil => rfl
  | cons s rest ih =>
    rw [List.map_cons, List.lookup_cons, List.find?_cons, ih, Bool.beq_comm (a := name)]
    cases s.name == name <;> rfl

/-- The link that an announcement comes to among some schedulers. -/
def Announcement.linkIn? (schedulers : List Scheduler) (a : Announcement) : Option ChainLink :=
  (lastNamed? schedulers a.scheduler).map fun s =>
    { level := a.level, source := a.scheduler, group := a.group, fragment := s.spec }

theorem Announcement.link?_ofList (schedulers : List Scheduler) :
    Announcement.link? (SchedulerIndex.ofList schedulers) = Announcement.linkIn? schedulers := by
  funext a
  unfold link? linkIn?
  rw [SchedulerIndex.get?_ofList, Option.map_map]
  rfl

namespace ChainBuilder

/-- A call to a builder. -/
inductive Call where
  | team (scheduler : Option String)
  | group (group scheduler : String)
  | repository (scheduler : Option String)
  | bootstrap (fragment : Fragment)

namespace Call

/-- The level that a call is about. -/
def level : Call → Level
  | .team _ => .team
  | .group _ _ => .group
  | .repository _ => .repository
  | .bootstrap _ => .bootstrap

/-- What a call announces, if it names a scheduler. -/
def announcement? : Call → Option Announcement
  | .team scheduler => scheduler.map fun scheduler => { level := .team, scheduler }
  | .group name scheduler => some { level := .group, scheduler, group := some name }
  | .repository scheduler => scheduler.map fun scheduler => { level := .repository, scheduler }
  | .bootstrap _ => none

/-- What a call injects. -/
def injection? : Call → Option Fragment
  | .bootstrap fragment => some fragment
  | _ => none

theorem level_of_announcement? {c : Call} {a : Announcement} (h : c.announcement? = some a) :
    a.level = c.level := by
  cases c with
  | team scheduler | repository scheduler =>
    obtain ⟨name, -, rfl⟩ := Option.map_eq_some_iff.1 h
    rfl
  | group name scheduler =>
    obtain rfl := Option.some.inj h
    rfl
  | bootstrap fragment => cases h

end Call

/-- What calls announce on a level, in the order of the calls. -/
def announced (level : Level) (calls : List Call) : List Announcement :=
  (calls.filterMap Call.announcement?).filter (·.level == level)

/-- What calls inject, in the order of the calls. -/
def injected (calls : List Call) : List Fragment := calls.filterMap Call.injection?

/-- The link of the injection. -/
def injectionLink (fragment : Fragment) : ChainLink :=
  { level := .bootstrap, source := "bootstrap", fragment }

/-- The chain that calls come to. Of a level with one slot the last announcement counts, whether its
scheduler exists or not; the groups stand in reverse order, those whose scheduler exists. -/
def announcedChain (schedulers : List Scheduler) (calls : List Call) : List ChainLink :=
  ((announced .team calls).getLast?.bind (Announcement.linkIn? schedulers)).toList ++
    (announced .group calls).reverse.filterMap (Announcement.linkIn? schedulers) ++
    ((announced .repository calls).getLast?.bind (Announcement.linkIn? schedulers)).toList ++
    ((injected calls).getLast?.map injectionLink).toList

/-- A builder after a call. -/
def call (b : ChainBuilder) : Call → ChainBuilder
  | .team scheduler => b.withTeam scheduler
  | .group name scheduler => b.withGroup name scheduler
  | .repository scheduler => b.withRepository scheduler
  | .bootstrap fragment => b.withBootstrap fragment

/-! ### What calls come to -/

/-- The last of some items counts, and without any what was there before. -/
theorem elim_getLast?_cons {α β : Type} (x : α) (xs : List α) (before : β) (f : α → β) :
    (x :: xs).getLast?.elim before f = xs.getLast?.elim (f x) f := by
  rw [List.getLast?_cons]
  cases xs.getLast? <;> rfl

/-- What a group comes to stands below the groups from before. -/
theorem call_group (b : ChainBuilder) (name scheduler : String) :
    b.call (.group name scheduler) =
      { b with
        groups := List.filterMap (Announcement.link? b.schedulers)
          [{ level := .group, scheduler, group := some name }] ++ b.groups } := by
  change b.withGroup name scheduler = _
  unfold withGroup link? Announcement.link?
  rw [List.filterMap_cons]
  dsimp only
  cases b.schedulers.get? scheduler <;> rfl

/-- **What a builder holds after some calls.** Each slot holds what the calls of its level come to,
and without any what it held before. -/
theorem foldl_call (calls : List Call) (b : ChainBuilder) :
    calls.foldl call b =
      { b with
        team := (announced .team calls).getLast?.elim b.team (Announcement.link? b.schedulers)
        groups := (announced .group calls).reverse.filterMap (Announcement.link? b.schedulers) ++
          b.groups
        own := (announced .repository calls).getLast?.elim b.own
          (Announcement.link? b.schedulers)
        bootstrap := (injected calls).getLast?.elim b.bootstrap (some ∘ injectionLink) } := by
  induction calls generalizing b with
  | nil => rfl
  | cons c calls ih =>
    rw [List.foldl_cons, ih]
    -- a call without a name announces nothing and changes nothing
    cases c with
    | team scheduler =>
      cases scheduler with
      | none => rfl
      | some name =>
        have hcons : announced .team (.team (some name) :: calls) =
            { level := .team, scheduler := name } :: announced .team calls := rfl
        rw [hcons, elim_getLast?_cons]
        rfl
    | group name scheduler =>
      have hcons : announced .group (.group name scheduler :: calls) =
          { level := .group, scheduler, group := some name } :: announced .group calls := rfl
      rw [hcons, List.reverse_cons, List.filterMap_append, List.append_assoc, call_group]
      rfl
    | repository scheduler =>
      cases scheduler with
      | none => rfl
      | some name =>
        have hcons : announced .repository (.repository (some name) :: calls) =
            { level := .repository, scheduler := name } :: announced .repository calls := rfl
        rw [hcons, elim_getLast?_cons]
        rfl
    | bootstrap fragment =>
      have hcons : injected (.bootstrap fragment :: calls) = fragment :: injected calls := rfl
      rw [hcons, elim_getLast?_cons]
      rfl

/-- The chain after some calls, from a builder without links. -/
theorem chain_foldl_call (schedulers : List Scheduler) (calls : List Call) :
    (calls.foldl call { schedulers := SchedulerIndex.ofList schedulers }).chain =
      announcedChain schedulers calls := by
  have helim {α β : Type} (x : Option α) (f : α → Option β) : x.elim none f = x.bind f := by
    cases x <;> rfl
  rw [foldl_call]
  unfold chain announcedChain
  dsimp only
  rw [List.append_nil, helim, helim, helim, Announcement.link?_ofList]
  congr 1
  cases (injected calls).getLast? <;> rfl

section Order

/-! ### Levels -/

variable {P : Fragment → Prop} {b : ChainBuilder} {schedulers : List Scheduler}
  {calls calls' : List Call}

/-- A call puts its link into the slot of its level. -/
theorem Sorted.call (h : b.Sorted P) {c : Call} (hc : ∀ f ∈ c.injection?, P f) :
    (b.call c).Sorted P := by
  cases c with
  | team scheduler => exact h.withTeam scheduler
  | group name scheduler => exact h.withGroup name scheduler
  | repository scheduler => exact h.withRepository scheduler
  | bootstrap fragment => exact h.withBootstrap (hc fragment rfl)

theorem Sorted.foldl_call (h : b.Sorted P) (hcalls : ∀ c ∈ calls, ∀ f ∈ c.injection?, P f) :
    (calls.foldl ChainBuilder.call b).Sorted P := by
  induction calls generalizing b with
  | nil => exact h
  | cons c calls ih =>
    obtain ⟨hc, hcalls⟩ := List.forall_mem_cons.1 hcalls
    exact ih (h.call hc) hcalls

/-- Levels never decrease along some links, and end at a level at most. -/
structure AscendsTo (level : Level) (links : List ChainLink) : Prop where
  pairwise : links.Pairwise fun l m => l.level.rank ≤ m.level.rank
  le : ∀ l ∈ links, l.level.rank ≤ level.rank

theorem AscendsTo.append {level level' : Level} {below above : List ChainLink}
    (h : AscendsTo level below) (hle : level.rank ≤ level'.rank)
    (habove : ∀ l ∈ above, l.level = level') : AscendsTo level' (below ++ above) where
  pairwise := by
    refine List.pairwise_append.2 ⟨h.pairwise, ?_, fun l hl m hm => ?_⟩
    · refine List.pairwise_of_forall_mem_list fun l hl m hm => ?_
      exact Nat.le_of_eq (by rw [habove l hl, habove m hm])
    · rw [habove m hm]
      exact Nat.le_trans (h.le l hl) hle
  le := by
    refine List.forall_mem_append.2 ⟨fun l hl => Nat.le_trans (h.le l hl) hle, fun l hl => ?_⟩
    exact Nat.le_of_eq (by rw [habove l hl])

/-- A chain ascends, slot by slot. -/
theorem Sorted.ascends (h : b.Sorted P) : AscendsTo .bootstrap b.chain := by
  have hnone : AscendsTo .team [] := ⟨.nil, List.forall_mem_nil _⟩
  -- slot by slot the level that the links end at rises
  have hteam : AscendsTo .team b.team.toList :=
    hnone.append (Nat.le_refl _) fun l hl => (h.team l (Option.mem_toList.1 hl)).1
  have hgroups : AscendsTo .group (b.team.toList ++ b.groups) :=
    hteam.append (by decide) fun l hl => (h.groups l hl).1
  have hown : AscendsTo .repository (b.team.toList ++ b.groups ++ b.own.toList) :=
    hgroups.append (by decide) fun l hl => (h.own l (Option.mem_toList.1 hl)).1
  exact hown.append (by decide) fun l hl => (h.bootstrap l (Option.mem_toList.1 hl)).1

/-! ### Calls that change places -/

/-- What is announced on a level depends on the calls of this level only. -/
theorem announced_filter (level : Level) (calls : List Call) :
    announced level (calls.filter (·.level == level)) = announced level calls := by
  unfold announced
  rw [List.filter_filterMap, List.filter_filterMap, List.filterMap_filter]
  refine List.filterMap_congr fun c _ => ?_
  cases hlevel : c.level == level with
  | true => rfl
  | false =>
    -- a call of another level announces nothing on this one
    cases ha : c.announcement? with
    | none => rfl
    | some a =>
      have hne : (a.level == level) = false := by rw [Call.level_of_announcement? ha, hlevel]
      rw [if_neg Bool.false_ne_true, Option.filter_some, hne, if_neg Bool.false_ne_true]

theorem injected_filter (calls : List Call) :
    injected (calls.filter (·.level == .bootstrap)) = injected calls := by
  unfold injected
  rw [List.filterMap_filter]
  refine List.filterMap_congr fun c _ => ?_
  cases c <;> rfl

/-- Calls of different levels may change places. -/
theorem announcedChain_congr
    (h : ∀ level, calls.filter (·.level == level) = calls'.filter (·.level == level))
    (schedulers : List Scheduler) :
    announcedChain schedulers calls = announcedChain schedulers calls' := by
  have hannounced (level : Level) : announced level calls = announced level calls' := by
    rw [← announced_filter, h, announced_filter]
  have hinjected : injected calls = injected calls' := by
    rw [← injected_filter, h, injected_filter]
  unfold announcedChain
  rw [hannounced, hannounced, hannounced, hinjected]

/-! ### Links -/

/-- A link of a chain that calls come to is the injection, or that of an announcement. -/
theorem of_mem_announcedChain {l : ChainLink} (h : l ∈ announcedChain schedulers calls) :
    l.level = .bootstrap ∨ ∃ a : Announcement, a.linkIn? schedulers = some l := by
  -- the team and the repository have one slot each
  have hslot {x : Option Announcement}
      (h : l ∈ (x.bind (Announcement.linkIn? schedulers)).toList) :
      ∃ a : Announcement, a.linkIn? schedulers = some l := by
    obtain ⟨a, -, ha⟩ := Option.bind_eq_some_iff.1 (Option.mem_toList.1 h)
    exact ⟨a, ha⟩
  unfold announcedChain at h
  rw [List.mem_append, List.mem_append, List.mem_append] at h
  obtain ((h | h) | h) | h := h
  · exact Or.inr (hslot h)
  · obtain ⟨a, -, ha⟩ := List.mem_filterMap.1 h
    exact Or.inr ⟨a, ha⟩
  · exact Or.inr (hslot h)
  · obtain ⟨f, -, rfl⟩ := Option.map_eq_some_iff.1 (Option.mem_toList.1 h)
    exact Or.inl rfl

/-- **The chain does not depend on the order of calls on different levels.** After any calls it is
what the calls of each level come to, lowest level first; calls that keep their order level by level
come to the same chain; and every link but the injection has the fragment of the last scheduler of
its name. -/
theorem chain_of_calls (schedulers : List Scheduler) (calls : List Call) :
    let build calls :=
      (List.foldl call { schedulers := SchedulerIndex.ofList schedulers } calls).chain
    build calls = announcedChain schedulers calls ∧
    (build calls).Pairwise (fun l m => l.level.rank ≤ m.level.rank) ∧
    (∀ calls', (∀ level, calls.filter (·.level == level) = calls'.filter (·.level == level)) →
      build calls' = build calls) ∧
    ∀ l ∈ build calls, l.level ≠ .bootstrap →
      ∃ before s after, schedulers = before ++ s :: after ∧ s.name = l.source ∧
        (∀ later ∈ after, later.name ≠ l.source) ∧ l.fragment = s.spec := by
  intro build
  have hbuild (calls : List Call) : build calls = announcedChain schedulers calls :=
    chain_foldl_call schedulers calls
  -- nothing is out of place in a builder without links, and calls keep it so
  have hempty : Sorted (fun _ => True) { schedulers := SchedulerIndex.ofList schedulers } :=
    { schedulers := fun _ _ _ => trivial
      team := by rintro l ⟨⟩
      groups := List.forall_mem_nil _
      own := by rintro l ⟨⟩
      bootstrap := by rintro l ⟨⟩ }
  refine ⟨hbuild calls, (hempty.foldl_call fun _ _ _ _ => trivial).ascends.pairwise, ?_, ?_⟩
  · intro calls' hcalls
    rw [hbuild, hbuild, announcedChain_congr hcalls]
  · intro l hl hlevel
    rw [hbuild] at hl
    obtain ⟨a, ha⟩ := (of_mem_announcedChain hl).resolve_left hlevel
    obtain ⟨s, hs, rfl⟩ := Option.map_eq_some_iff.1 ha
    obtain ⟨before, after, hsplit, hname, hlater⟩ := lastNamed?_eq_some_iff.1 hs
    exact ⟨before, s, after, hsplit, hname, hlater, rfl⟩

end Order

/-! ### Calls from top to bottom -/

namespace TopDown

def plugin (name : String) : Fragment := { plugins := some { items := [name] } }

/-- Two schedulers are called `own`. -/
def schedulers : List Scheduler :=
  [.ofFragment "own" (plugin "hold"), .ofFragment "team" (plugin "trigger"),
    .ofFragment "backend" (plugin "approve"), .ofFragment "own" (plugin "lgtm")]

/-- The injection comes first and the team last; one group refers to no scheduler that exists, and
the second call for the team names none. -/
def calls : List Call :=
  [.bootstrap (plugin "old"), .repository (some "missing"), .bootstrap (plugin "config-updater"),
    .repository (some "own"), .group "api" "backend", .group "lost" "missing",
    .group "web" "team", .team (some "team"), .team none]

/-- The same calls, level by level. -/
def bottomUp : List Call :=
  [.team (some "team"), .team none, .group "api" "backend", .group "lost" "missing",
    .group "web" "team", .repository (some "missing"), .repository (some "own"),
    .bootstrap (plugin "old"), .bootstrap (plugin "config-updater")]

def links : List ChainLink := [
  { level := .team, source := "team", fragment := plugin "trigger" },
  { level := .group, source := "team", group := some "web", fragment := plugin "trigger" },
  { level := .group, source := "backend", group := some "api", fragment := plugin "approve" },
  { level := .repository, source := "own", fragment := plugin "lgtm" },
  { level := .bootstrap, source := "bootstrap", fragment := plugin "config-updater" }]

theorem chain_of_calls_topDown :
    (∀ level, calls.filter (·.level == level) = bottomUp.filter (·.level == level)) ∧
    (calls.foldl call { schedulers := SchedulerIndex.ofList schedulers }).chain = links ∧
    (bottomUp.foldl call { schedulers := SchedulerIndex.ofList schedulers }).chain = links := by
  have hsame : ∀ level, calls.filter (·.level == level) = bottomUp.filter (·.level == level) := by
    rintro (_ | _ | _ | _) <;> rfl
  obtain ⟨hchain, -, hreordered, -⟩ := chain_of_calls schedulers calls
  have hlinks : announcedChain schedulers calls = links := rfl
  exact ⟨hsame, hchain.trans hlinks, (hreordered bottomUp hsame).trans (hchain.trans hlinks)⟩

end TopDown

end ChainBuilder

end SchedulerPolicy
