import Mathlib.Data.List.Forall2
import Mathlib.Data.List.Nodup
import Mathlib.Data.List.Pairwise
import SchedulerPolicy.Proofs.Merge.Ambiguity
import SchedulerPolicy.Proofs.Resolution.Peers

/-!
# Peers in any order

Fragments of one precedence should come to the same whatever order they are given in. They are
checked by an index of their jobs, in which each definition of a name is compared with the first
one, and built like a chain, where the order decides and lists may replace. This module shows that
neither order nor flags matter as long as every fragment names a job of a section once
(`DistinctJobs`).

* Whether a name collides says nothing about an order: some two definitions differ
  (`JobSection.Collides`). Comparing with the first definition finds out, since agreement is an
  equivalence (`JobSection.differ_eq_false_iff_forall`).
* The index is in the order of names, so what is reported is the least name of the first section
  (`FirstCollision`), and its count is the number of fragments that define it, each once.
* Without a collision the chain is built (`build_of_distinctJobs`), and without lists that replace
  every section pools the jobs of all fragments (`JobSection.Pooled`). What pools the same fragments
  is the same up to agreement (`JobSection.Pooled.sameJobs`).
-/

namespace SchedulerPolicy

/-- Of the entries of a map that pass a check, the first is the one with the least key. -/
theorem Keyed.find?_entries_eq_some_iff {α : Type} {m : Keyed α} {p : String × α → Bool}
    {key : String} {v : α} :
    m.entries.find? p = some (key, v) ↔
      m.get? key = some v ∧ p (key, v) = true ∧
        ∀ k w, m.get? k = some w → k < key → p (k, w) = false := by
  simp only [Keyed.get?_eq_some_iff, List.find?_eq_some_iff_append]
  constructor
  · rintro ⟨hp, before, after, hentries, hbefore⟩
    refine ⟨hentries ▸ by simp, hp, fun k w hmem hlt => ?_⟩
    -- an entry with a smaller key comes before
    have hsorted := m.ascending
    rw [hentries] at hmem hsorted
    rcases List.mem_append.1 hmem with hmem | hmem
    · simpa using hbefore _ hmem
    · exfalso
      have hafter := (List.pairwise_cons.1 (List.pairwise_append.1 hsorted).2.1).1
      rcases List.mem_cons.1 hmem with heq | hmem
      · exact String.lt_irrefl _ ((Prod.mk.inj heq).1 ▸ hlt)
      · exact String.lt_irrefl _ (String.lt_trans hlt (hafter _ hmem))
  · rintro ⟨hmem, hp, hless⟩
    obtain ⟨before, after, hentries⟩ := List.append_of_mem hmem
    refine ⟨hp, before, after, hentries, fun ⟨k, w⟩ hkw => ?_⟩
    have hsorted := m.ascending
    rw [hentries] at hsorted
    have hlt := (List.pairwise_append.1 hsorted).2.2 _ hkw _ List.mem_cons_self
    rw [hless k w (hentries ▸ List.mem_append_left _ hkw) hlt]
    rfl

namespace Fragment

/-- The jobs that a fragment defines, section by section. -/
def definedJobs (f : Fragment) (s : JobSection) : List Job := s.jobs f

/-- No section of the fragment names two jobs alike. -/
def DistinctJobs (f : Fragment) : Prop := ∀ s : JobSection, ((f.definedJobs s).map Job.name).Nodup

instance (f : Fragment) : Decidable f.DistinctJobs :=
  decidable_of_iff (∀ s ∈ JobSection.all, ((f.definedJobs s).map Job.name).Nodup)
    ⟨fun h s => h s (by cases s <;> decide), fun h s _ => h s⟩

/-! ### Collisions -/

namespace JobSection

/-- Two of the fragments define the name with different content. -/
def Collides (s : JobSection) (peers : List Fragment) (name : String) : Prop :=
  ∃ f ∈ peers, ∃ g ∈ peers, ∃ a ∈ f.definedJobs s, ∃ b ∈ g.definedJobs s,
    a.name = name ∧ b.name = name ∧ (a == b) = false

/-- The fragments that define the name. -/
def definers (s : JobSection) (peers : List Fragment) (name : String) : List Fragment :=
  peers.filter fun f => (f.definedJobs s).any (·.name == name)

/-- **The first definition speaks for all**: when none differs from it, no two differ. -/
theorem differ_eq_false_iff_forall {jobs : List Job} :
    differ jobs = false ↔ ∀ a ∈ jobs, ∀ b ∈ jobs, (a == b) = true := by
  rw [differ_eq_false_iff]
  have : Std.Symm fun a b : Job => (a == b) = true := ⟨fun _ _ => BEq.symm⟩
  -- agreement is symmetric, so one order of each pair is enough
  constructor
  · intro h a ha b hb
    exact h.forall_of_forall (fun _ _ => BEq.rfl) ha hb
  · intro h
    exact List.pairwise_of_forall_mem_list h

theorem collides_iff {s : JobSection} {peers : List Fragment} {name : String} :
    s.Collides peers name ↔
      differ ((peers.flatMap s.jobs).filter (·.name == name)) = true := by
  rw [← Bool.not_eq_false, differ_eq_false_iff_forall]
  simp only [List.mem_filter, List.mem_flatMap, beq_iff_eq]
  constructor
  · rintro ⟨f, hf, g, hg, a, ha, b, hb, hna, hnb, hab⟩ hall
    rw [hall a ⟨⟨f, hf, ha⟩, hna⟩ b ⟨⟨g, hg, hb⟩, hnb⟩] at hab
    cases hab
  · intro hnot
    -- if no two definitions differed, all would agree
    refine Classical.byContradiction fun hno => hnot ?_
    rintro a ⟨⟨f, hf, ha⟩, hna⟩ b ⟨⟨g, hg, hb⟩, hnb⟩
    cases hab : a == b with
    | true => rfl
    | false => exact absurd ⟨f, hf, g, hg, a, ha, b, hb, hna, hnb, hab⟩ hno

/-- A section reports nothing when none of its names collides. -/
theorem collision?_eq_none_iff_forall {s : JobSection} {peers : List Fragment} :
    s.collision? peers = none ↔ ∀ name, ¬s.Collides peers name := by
  rw [collision?_eq_none_iff, ← pairwise_filter_name_iff]
  simp only [collides_iff, Bool.not_eq_true, differ_eq_false_iff]

/-- A section reports the least of the names that collide. -/
theorem collision?_eq_some_iff {s : JobSection} {peers : List Fragment} {e : AmbiguousJob} :
    s.collision? peers = some e ↔
      ∃ name, s.Collides peers name ∧ (∀ smaller < name, ¬s.Collides peers smaller) ∧
        e = { path := s.name, name,
              count := ((peers.flatMap s.jobs).filter (·.name == name)).length } := by
  -- the definitions of a name, as the index has them
  have hget : ∀ name jobs, (s.definitions peers).get? name = some jobs →
      jobs = (peers.flatMap s.jobs).filter (·.name == name) := by
    intro name jobs h
    rw [get?_definitions] at h
    split at h
    · exact (Option.some.inj h).symm
    · cases h
  -- a name that collides has definitions
  have hcollides : ∀ name, s.Collides peers name → (s.definitions peers).get? name =
      some ((peers.flatMap s.jobs).filter (·.name == name)) := by
    rintro name ⟨f, hf, -, -, a, ha, -, -, hname, -, -⟩
    rw [get?_definitions, if_pos]
    exact List.any_eq_true.2 ⟨a, List.mem_flatMap.2 ⟨f, hf, ha⟩, beq_iff_eq.2 hname⟩
  rw [collision?, Option.map_eq_some_iff]
  constructor
  · rintro ⟨⟨name, jobs⟩, hfind, rfl⟩
    obtain ⟨hdefs, hdiffer, hless⟩ := Keyed.find?_entries_eq_some_iff.1 hfind
    obtain rfl := hget name jobs hdefs
    refine ⟨name, collides_iff.2 hdiffer, fun smaller hlt hsmaller => ?_, rfl⟩
    have hagree := hless smaller _ (hcollides smaller hsmaller) hlt
    exact Bool.false_ne_true (hagree.symm.trans (collides_iff.1 hsmaller))
  · rintro ⟨name, hname, hless, rfl⟩
    refine ⟨(name, _), Keyed.find?_entries_eq_some_iff.2
      ⟨hcollides name hname, collides_iff.1 hname, fun k w hk hlt => ?_⟩, rfl⟩
    obtain rfl := hget k w hk
    exact Bool.eq_false_iff.2 fun hdiffer => hless k hlt (collides_iff.2 hdiffer)

/-- Where a fragment has a name once, it counts once. -/
theorem length_definers {s : JobSection} {peers : List Fragment}
    (h : ∀ f ∈ peers, f.DistinctJobs) (name : String) :
    ((peers.flatMap s.jobs).filter (·.name == name)).length = (s.definers peers name).length := by
  unfold definers
  induction peers with
  | nil => rfl
  | cons f peers ih =>
    rw [List.forall_mem_cons] at h
    rw [List.flatMap_cons, List.filter_append, List.length_append, ih h.2, List.filter_cons]
    have hle := JobSet.length_filter_name_le_one (h.1 s) name
    by_cases hany : (f.definedJobs s).any (·.name == name) = true
    · -- the fragment has a job of the name, and no second one
      obtain ⟨job, hjob, hname⟩ := List.any_eq_true.1 hany
      have hpos : 0 < ((s.jobs f).filter (·.name == name)).length :=
        List.length_pos_of_mem (List.mem_filter.2 ⟨hjob, hname⟩)
      rw [if_pos hany, List.length_cons, Nat.add_comm]
      congr 1
      exact Nat.le_antisymm hle hpos
    · have hnil : (s.jobs f).filter (·.name == name) = [] :=
        List.filter_eq_nil_iff.2 fun job hjob hname => hany (List.any_eq_true.2 ⟨job, hjob, hname⟩)
      rw [if_neg hany, hnil, List.length_nil, Nat.zero_add]

end JobSection

/-- What is reported of peers: the first section with a collision, the least name that collides in
it, and the number of peers that define the name. -/
def FirstCollision (peers : List Fragment) (e : AmbiguousJob) : Prop :=
  ∃ before s after name, JobSection.all = before ++ s :: after ∧
    (∀ earlier ∈ before, ∀ n, ¬earlier.Collides peers n) ∧
    s.Collides peers name ∧ (∀ smaller < name, ¬s.Collides peers smaller) ∧
    e = { path := s.name, name, count := (s.definers peers name).length }

/-! ### Failure -/

/-- **A chain of fragments with distinct job names is built**: no name of the highest set of a
section stands for several jobs. -/
theorem build_of_distinctJobs {chain : List Fragment} (h : ∀ f ∈ chain, f.DistinctJobs) :
    build chain = .ok (stack chain) := by
  rw [build_eq_outcome, outcome_eq_ok_iff]
  refine ⟨List.eq_nil_iff_forall_not_mem.2 fun e he => ?_, rfl⟩
  obtain ⟨s, top, lower, hsets, -, -, -, job, -, htwo, -⟩ := mem_ambiguities_iff.1 he
  -- the highest set is the set of a fragment
  have htop : top ∈ chain.reverse.filterMap s.jobs? := hsets ▸ List.mem_cons_self
  obtain ⟨f, hf, hset⟩ := List.mem_filterMap.1 htop
  have hitems : f.definedJobs s = top.items := by
    rw [definedJobs, JobSection.jobs, hset]
    rfl
  have hone := JobSet.length_filter_name_le_one (h f (List.mem_reverse.1 hf) s) job.name
  rw [hitems] at hone
  exact absurd htwo (Nat.not_le.2 (Nat.lt_succ_of_le hone))

/-- What building peers comes to: what the first section with a collision reports, and otherwise the
peers laid over one another. -/
theorem buildPeers_eq_outcome {peers : List Fragment} (h : ∀ f ∈ peers, f.DistinctJobs) :
    buildPeers peers =
      outcome (JobSection.all.findSome? (·.collision? peers)).toList (stack peers) := by
  unfold buildPeers
  cases JobSection.all.findSome? (·.collision? peers) with
  | some e => rfl
  | none => exact build_of_distinctJobs h

/-- **What building peers reports.** -/
theorem buildPeers_eq_error_iff {peers : List Fragment} (h : ∀ f ∈ peers, f.DistinctJobs)
    {e : AmbiguousJob} : buildPeers peers = .error e ↔ FirstCollision peers e := by
  rw [buildPeers_eq_outcome h, outcome_eq_error_iff, Option.head?_toList,
    List.findSome?_eq_some_iff]
  simp only [JobSection.collision?_eq_some_iff, JobSection.collision?_eq_none_iff_forall,
    JobSection.length_definers h, FirstCollision]
  constructor
  · rintro ⟨before, s, after, hall, ⟨name, hname⟩, hbefore⟩
    exact ⟨before, s, after, name, hall, hbefore, hname⟩
  · rintro ⟨before, s, after, name, hall, hbefore, hname⟩
    exact ⟨before, s, after, hall, ⟨name, hname⟩, hbefore⟩

/-- Two of the fragments are in conflict when some name of some section collides. -/
theorem exists_conflict_iff {peers : List Fragment} :
    (∃ f ∈ peers, ∃ g ∈ peers, f.Conflict g) ↔
      ∃ (s : JobSection) (name : String), s.Collides peers name := by
  constructor
  · rintro ⟨f, hf, g, hg, s, a, ha, b, hb, hname, hab⟩
    exact ⟨s, b.name, f, hf, g, hg, a, ha, b, hb, hname, rfl, hab⟩
  · rintro ⟨s, name, f, hf, g, hg, a, ha, b, hb, rfl, hname, hab⟩
    exact ⟨f, hf, g, hg, s, a, ha, b, hb, hname.symm, hab⟩

/-- **When building peers fails**: when two of them are in conflict, wherever they stand. -/
theorem buildPeers_eq_ok_iff_of_distinctJobs {peers : List Fragment}
    (h : ∀ f ∈ peers, f.DistinctJobs) {r : Fragment} :
    buildPeers peers = .ok r ↔
      (∀ f ∈ peers, ∀ g ∈ peers, ¬f.Conflict g) ∧ r = stack peers := by
  have hnone : (∀ f ∈ peers, ∀ g ∈ peers, ¬f.Conflict g) ↔
      JobSection.all.findSome? (·.collision? peers) = none := by
    rw [List.findSome?_eq_none_iff]
    simp only [JobSection.collision?_eq_none_iff_forall]
    constructor
    · intro hagree s _ name hname
      obtain ⟨f, hf, g, hg, hfg⟩ := exists_conflict_iff.2 ⟨s, name, hname⟩
      exact hagree f hf g hg hfg
    · intro hall f hf g hg hfg
      obtain ⟨s, name, hname⟩ := exists_conflict_iff.1 ⟨f, hf, g, hg, hfg⟩
      exact hall s (by cases s <;> decide) name hname
  rw [buildPeers_eq_outcome h, outcome_eq_ok_iff, Option.toList_eq_nil_iff, hnone, eq_comm (a := r)]

/-! ### Other orders and other flags -/

section SameDefinitions

variable {peers qs : List Fragment} (h : (qs.map definedJobs).Perm (peers.map definedJobs))
include h

/-- What is defined by one of the fragments is defined by one of those they are compared with. -/
theorem exists_of_perm {P : (JobSection → List Job) → Prop} :
    (∃ f ∈ qs, P f.definedJobs) → ∃ f ∈ peers, P f.definedJobs := by
  rintro ⟨f, hf, hP⟩
  obtain ⟨g, hg, hfg⟩ := List.mem_map.1 (h.mem_iff.1 (List.mem_map_of_mem hf))
  exact ⟨g, hg, hfg ▸ hP⟩

theorem exists_iff_of_perm {P : (JobSection → List Job) → Prop} :
    (∃ f ∈ qs, P f.definedJobs) ↔ ∃ f ∈ peers, P f.definedJobs :=
  ⟨exists_of_perm h, exists_of_perm h.symm⟩

theorem distinctJobs_of_perm (hpeers : ∀ f ∈ peers, f.DistinctJobs) : ∀ f ∈ qs, f.DistinctJobs := by
  intro f hf
  obtain ⟨g, hg, hfg⟩ := exists_of_perm h (P := (f.definedJobs = ·)) ⟨f, hf, rfl⟩
  unfold DistinctJobs
  rw [hfg]
  exact hpeers g hg

theorem collides_iff_of_perm (s : JobSection) (name : String) :
    s.Collides qs name ↔ s.Collides peers name := by
  unfold JobSection.Collides
  -- first the one fragment, then the other
  rw [exists_iff_of_perm h (P := fun jobs => ∃ g ∈ qs, ∃ a ∈ jobs s, ∃ b ∈ g.definedJobs s,
    a.name = name ∧ b.name = name ∧ (a == b) = false)]
  refine exists_congr fun f => and_congr_right fun _ => ?_
  exact exists_iff_of_perm h (P := fun jobs => ∃ a ∈ f.definedJobs s, ∃ b ∈ jobs s,
    a.name = name ∧ b.name = name ∧ (a == b) = false)

theorem length_definers_of_perm (s : JobSection) (name : String) :
    (s.definers qs name).length = (s.definers peers name).length := by
  -- fragments are counted by what they define
  have hcount := h.countP_eq fun jobs => (jobs s).any (·.name == name)
  rw [List.countP_map, List.countP_map, List.countP_eq_length_filter,
    List.countP_eq_length_filter] at hcount
  exact hcount

theorem firstCollision_iff_of_perm {e : AmbiguousJob} :
    FirstCollision qs e ↔ FirstCollision peers e := by
  simp only [FirstCollision, collides_iff_of_perm h, length_definers_of_perm h]

end SameDefinitions

/-! ### Success -/

/-- Jobs that differ at most in the order in which they come, and in what agreement does not see. -/
def SameJobs (xs ys : List Job) : Prop :=
  ∃ zs, xs.Perm zs ∧ List.Forall₂ (fun a b => (a == b) = true) zs ys

/-- The jobs hold one for each name that a fragment defines in the section, and it agrees with every
definition of the name. -/
structure JobSection.Pooled (s : JobSection) (peers : List Fragment) (jobs : List Job) : Prop where
  nodup_names : (jobs.map Job.name).Nodup
  mem_names_iff : ∀ name, name ∈ jobs.map Job.name ↔
    ∃ f ∈ peers, name ∈ (f.definedJobs s).map Job.name
  agrees : ∀ job ∈ jobs, ∀ f ∈ peers, ∀ other ∈ f.definedJobs s,
    other.name = job.name → (job == other) = true

theorem JobSection.Pooled.of_perm {s : JobSection} {peers qs : List Fragment} {jobs : List Job}
    (hperm : qs.Perm peers) (h : s.Pooled qs jobs) : s.Pooled peers jobs where
  nodup_names := h.nodup_names
  mem_names_iff name := by
    rw [h.mem_names_iff]
    exact exists_congr fun f => and_congr_left fun _ => hperm.mem_iff
  agrees job hjob f hf := h.agrees job hjob f (hperm.mem_iff.2 hf)

/-- **What pools the same fragments is the same.** -/
theorem JobSection.Pooled.sameJobs {s : JobSection} {peers : List Fragment} {xs ys : List Job}
    (hx : s.Pooled peers xs) (hy : s.Pooled peers ys) : SameJobs xs ys := by
  -- the job of `xs` that has the name of a job of `ys`
  have hpick : ∀ y ∈ ys, ∃ x ∈ xs, x.name = y.name ∧ (x == y) = true := by
    intro y hyy
    have hdefined := (hy.mem_names_iff y.name).1 (List.mem_map_of_mem hyy)
    obtain ⟨x, hxx, hname⟩ := List.mem_map.1 ((hx.mem_names_iff y.name).2 hdefined)
    obtain ⟨f, hf, hfname⟩ := hdefined
    obtain ⟨other, hother, hothername⟩ := List.mem_map.1 hfname
    -- both agree with a definition
    have hxother := hx.agrees x hxx f hf other hother (hothername.trans hname.symm)
    have hyother := hy.agrees y hyy f hf other hother hothername
    exact ⟨x, hxx, hname, BEq.trans hxother (BEq.symm hyother)⟩
  choose! pick hmem hname hagree using hpick
  have hnames : (ys.map pick).map Job.name = ys.map Job.name := by
    rw [List.map_map]
    exact List.map_congr_left hname
  have hnodup : ((ys.map pick).map Job.name).Nodup := hnames ▸ hy.nodup_names
  refine ⟨ys.map pick, ?_, ?_⟩
  · have hxs : xs.Nodup := .of_map Job.name hx.nodup_names
    have hzs : (ys.map pick).Nodup := .of_map Job.name hnodup
    refine (List.perm_ext_iff_of_nodup hxs hzs).2 fun x => ?_
    constructor
    · intro hxx
      have hxname : x.name ∈ ys.map Job.name :=
        (hy.mem_names_iff _).2 ((hx.mem_names_iff _).1 (List.mem_map_of_mem hxx))
      obtain ⟨y, hyy, hyname⟩ := List.mem_map.1 hxname
      -- in `xs` a name belongs to one job
      have heq : pick y = x := List.inj_on_of_nodup_map hx.nodup_names (hmem y hyy) hxx
        ((hname y hyy).trans hyname)
      exact heq ▸ List.mem_map_of_mem hyy
    · intro hxx
      obtain ⟨y, hyy, rfl⟩ := List.mem_map.1 hxx
      exact hmem y hyy
  · rw [List.forall₂_map_left_iff, List.forall₂_same]
    exact hagree

/-- Where nothing replaces, a section collects the jobs of new names, from the highest fragment
down. -/
theorem jobs_stack {s : JobSection} {chain : List Fragment} (h : ∀ f ∈ chain, f.DistinctJobs)
    (hreplace : ∀ f ∈ chain, ∀ set ∈ s.jobs? f, set.replace = false) :
    s.jobs (stack chain) = appendNew Job.name [] (chain.reverse.flatMap s.jobs) := by
  have hsets : ∀ set ∈ chain.reverse.filterMap s.jobs?,
      set.replace = false ∧ (set.items.map Job.name).Nodup := by
    intro set hset
    obtain ⟨f, hf, hfset⟩ := List.mem_filterMap.1 hset
    have hnames := h f (List.mem_reverse.1 hf) s
    rw [definedJobs, JobSection.jobs, hfset] at hnames
    exact ⟨hreplace f (List.mem_reverse.1 hf) set hfset, hnames⟩
  rw [← JobSection.flatMap_jobs, JobSection.jobs, jobs?_stack]
  cases hchain : chain.reverse.filterMap s.jobs? with
  | nil => rfl
  | cons top lower =>
    rw [hchain] at hsets
    have hany : (top :: lower).any JobSet.replace = false :=
      List.any_eq_false.2 fun set hset => by rw [(hsets set hset).1]; exact Bool.false_ne_true
    -- the highest set is taken as it is, since its names are distinct
    have htop : appendNew Job.name [] top.items = top.items :=
      appendNew_of_nodup (hsets top List.mem_cons_self).2
    rw [JobSet.merged, List.isEmpty_cons, if_neg Bool.false_ne_true, visible_of_not_any hany,
      List.flatMap_cons, appendNew_append, htop, ← joined_cons]
    rfl

theorem pooled_stack {peers : List Fragment} (h : ∀ f ∈ peers, f.DistinctJobs)
    (hagree : ∀ f ∈ peers, ∀ g ∈ peers, ¬f.Conflict g) {s : JobSection}
    (hreplace : ∀ f ∈ peers, ∀ set ∈ s.jobs? f, set.replace = false) :
    s.Pooled peers (s.jobs (stack peers)) := by
  rw [jobs_stack h hreplace]
  refine ⟨nodup_keys_appendNew .nil, fun name => ?_, fun job hjob g hg other hother hname => ?_⟩
  · -- names are collected from all fragments, from the highest down
    rw [keys_appendNew, List.map_nil, or_iff_right List.not_mem_nil]
    simp only [List.mem_map, List.mem_flatMap, List.mem_reverse]
    constructor
    · rintro ⟨job, ⟨f, hf, hjob⟩, hname⟩
      exact ⟨f, hf, job, hjob, hname⟩
    · rintro ⟨f, hf, job, hjob, hname⟩
      exact ⟨job, ⟨f, hf, hjob⟩, hname⟩
  · -- the job is some fragment's own
    have hmem := (mem_or_mem_of_mem_appendNew hjob).resolve_left List.not_mem_nil
    obtain ⟨f, hf, hfjob⟩ := List.mem_flatMap.1 hmem
    exact not_conflict_iff.1 (hagree f (List.mem_reverse.1 hf) g hg) s job hfjob other hother
      hname.symm

/-- **Peers collide independently of their order.** Of fragments that name every job of a section
once, building fails exactly when two are in conflict. It reports the first section with a
collision, the least name that collides there and how many peers define it, and reports the same
for any fragments that define the same jobs, whatever their order and whichever of their lists
replace. When it succeeds and no job section replaces, it succeeds in every order; each section then
has one job for each name that a peer defines, as all its definers have it, and hence the same jobs
in every order. -/
theorem buildPeers_of_distinctJobs {peers : List Fragment} (h : ∀ f ∈ peers, f.DistinctJobs) :
    ((∃ e, buildPeers peers = .error e) ↔ ∃ f ∈ peers, ∃ g ∈ peers, f.Conflict g) ∧
    (∀ e, buildPeers peers = .error e ↔ FirstCollision peers e) ∧
    (∀ qs : List Fragment, (qs.map definedJobs).Perm (peers.map definedJobs) →
      ∀ e, buildPeers qs = .error e ↔ buildPeers peers = .error e) ∧
    ∀ r, buildPeers peers = .ok r →
      (∀ f ∈ peers, ∀ s : JobSection, ∀ set ∈ s.jobs? f, set.replace = false) →
      ∀ qs : List Fragment, qs.Perm peers → ∃ q, buildPeers qs = .ok q ∧
        ∀ s : JobSection, s.Pooled peers (s.jobs q) ∧ SameJobs (s.jobs q) (s.jobs r) := by
  refine ⟨?_, fun e => buildPeers_eq_error_iff h, fun qs hperm e => ?_,
    fun r hr hreplace qs hperm => ?_⟩
  · cases hbuild : buildPeers peers with
    | error e =>
      -- without a conflict there would be a result
      refine iff_of_true ⟨e, rfl⟩ (Classical.byContradiction fun hno => ?_)
      have hagree : ∀ f ∈ peers, ∀ g ∈ peers, ¬f.Conflict g :=
        fun f hf g hg hfg => hno ⟨f, hf, g, hg, hfg⟩
      rw [(buildPeers_eq_ok_iff_of_distinctJobs h).2 ⟨hagree, rfl⟩] at hbuild
      cases hbuild
    | ok r =>
      obtain ⟨hagree, -⟩ := (buildPeers_eq_ok_iff_of_distinctJobs h).1 hbuild
      exact iff_of_false nofun fun ⟨f, hf, g, hg, hfg⟩ => hagree f hf g hg hfg
  · rw [buildPeers_eq_error_iff h, buildPeers_eq_error_iff (distinctJobs_of_perm hperm h),
      firstCollision_iff_of_perm hperm]
  · obtain ⟨hagree, rfl⟩ := (buildPeers_eq_ok_iff_of_distinctJobs h).1 hr
    -- all that was said of the peers is said of their members
    have hmem : ∀ f ∈ qs, f ∈ peers := fun f => hperm.mem_iff.1
    have hqs : ∀ f ∈ qs, f.DistinctJobs := fun f hf => h f (hmem f hf)
    have hqsagree : ∀ f ∈ qs, ∀ g ∈ qs, ¬f.Conflict g :=
      fun f hf g hg => hagree f (hmem f hf) g (hmem g hg)
    refine ⟨stack qs, (buildPeers_eq_ok_iff_of_distinctJobs hqs).2 ⟨hqsagree, rfl⟩, fun s => ?_⟩
    -- both results pool the same fragments
    have hpooled : s.Pooled peers (s.jobs (stack peers)) :=
      pooled_stack h hagree fun f hf => hreplace f hf s
    have hqspooled : s.Pooled peers (s.jobs (stack qs)) :=
      (pooled_stack hqs hqsagree fun f hf => hreplace f (hmem f hf) s).of_perm hperm
    exact ⟨hqspooled, hqspooled.sameJobs hpooled⟩

namespace Tooling

/-- A lint job with the settings that it is written with. -/
def lint (settings : List (Value × Value)) : Job :=
  { name := "lint", extra := .ofList [("spec", .map settings)] }

def review : Fragment := {
  presubmits := some {
    items := [
      { name := "unit" },
      lint [(.string "image", .string "go"), (.string "retries", .int 2)]] } }

/-- The lint job of `review`, with its settings in another order. -/
def release : Fragment := {
  presubmits := some {
    items := [
      lint [(.string "retries", .int 2), (.string "image", .string "go")],
      { name := "push" }] } }

/-- A lint job of its own, in a list that replaces. -/
def nightly : Fragment := {
  presubmits := some { items := [lint [(.string "image", .string "rust")]], replace := true } }

/-- Two groups agree on a job that they write differently, and either order gives the same three
jobs. The third group differs, and is refused first or last. -/
theorem buildPeers_of_distinctJobs_shared :
    (∀ f ∈ [review, release], f.DistinctJobs) ∧
    (∃ r, buildPeers [review, release] = .ok r ∧
      ∃ q, buildPeers [release, review] = .ok q ∧
        (q.definedJobs .presubmits).map Job.name = ["unit", "lint", "push"] ∧
        ∀ s : JobSection, s.Pooled [review, release] (s.jobs q) ∧
          SameJobs (s.jobs q) (s.jobs r)) ∧
    (∀ f ∈ [nightly, review, release], f.DistinctJobs) ∧
    (∃ f ∈ [nightly, review, release], ∃ g ∈ [nightly, review, release], f.Conflict g) ∧
    buildPeers [review, release, nightly] =
      .error { path := "presubmits", name := "lint", count := 3 } := by
  have hagreeing : ∀ f ∈ [review, release], f.DistinctJobs := by decide
  have hdiffering : ∀ f ∈ [nightly, review, release], f.DistinctJobs := by decide
  refine ⟨hagreeing, ?_, hdiffering, ?_, ?_⟩
  · obtain ⟨-, -, -, horders⟩ := buildPeers_of_distinctJobs hagreeing
    have hreplace : ∀ f ∈ [review, release], ∀ s : JobSection, ∀ set ∈ s.jobs? f,
        set.replace = false := by
      intro f hf s set hset
      rcases List.mem_pair.1 hf with rfl | rfl <;> cases s <;> cases hset <;> rfl
    have hbuild : buildPeers [review, release] = .ok (stack [review, release]) := by rfl
    obtain ⟨q, hq, hsections⟩ := horders _ hbuild hreplace [release, review] (.swap ..)
    have hqbuild : buildPeers [release, review] = .ok (stack [release, review]) := by rfl
    obtain rfl := Except.ok.inj (hqbuild.symm.trans hq)
    exact ⟨_, hbuild, _, hq, by rfl, hsections⟩
  · obtain ⟨hfails, -, -, -⟩ := buildPeers_of_distinctJobs hdiffering
    exact hfails.1 ⟨{ path := "presubmits", name := "lint", count := 3 }, by rfl⟩
  · obtain ⟨-, -, hothers, -⟩ := buildPeers_of_distinctJobs hdiffering
    have hperm : ([review, release] ++ [nightly]).Perm ([nightly] ++ [review, release]) :=
      List.perm_append_comm
    exact (hothers _ (hperm.map definedJobs) _).2 (by rfl)

end Tooling

end Fragment

end SchedulerPolicy
