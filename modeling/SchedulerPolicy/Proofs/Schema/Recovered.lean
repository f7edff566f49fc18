import SchedulerPolicy.Document.Recovered
import SchedulerPolicy.Proofs.Documents.Allocation
import SchedulerPolicy.Proofs.Schema.Documents
import SchedulerPolicy.Yaml.Node

/-!
# Recovered resources come back

A document is read from a value or directly from its YAML. In both cases no tag is kept of what is
no field (`Untagged`), so the jobs of a document come back whichever way it was read. Nothing else
that is recovered depends on how the document was read: all other parts of a fragment come back
whatever they are, and the jobs of a recovered fragment are jobs of the document. Hence everything
that is recovered can be written and read again (`readsBack_of_mem_schedulers`; a repository holds
texts alone).
-/

namespace SchedulerPolicy

/-! ### Nodes keep no tags -/

namespace Yaml.Node

theorem isTagFree_of_plainValue {text : String} {v : Value} (h : plainValue text = .ok v) :
    v.isTagFree = true := by
  unfold plainValue at h
  split at h
  case h_3 =>
    split at h
    · rw [← Except.ok.inj h]
      rfl
    · cases h
  all_goals
    rw [← Except.ok.inj h]
    rfl

theorem isTagFree_of_untaggedValue {s : Scalar} {v : Value} (h : untaggedValue s = .ok v) :
    v.isTagFree = true := by
  unfold untaggedValue at h
  split at h
  · exact isTagFree_of_plainValue h
  · rw [← Except.ok.inj h]
    rfl

theorem isTagFree_of_taggedValue {tag : String} {s : Scalar} {v : Value}
    (h : taggedValue tag s = .ok v) : v.isTagFree = true := by
  unfold taggedValue at h
  dsimp only at h
  -- a tag that enforces a kind of scalar leaves a scalar of that kind, or nothing
  split at h
  · split at h
    · next w hw =>
      obtain ⟨b, -, rfl⟩ := Option.map_eq_some_iff.1 hw
      rw [← Except.ok.inj h]
      rfl
    · cases h
  · split at h
    · split at h
      · exact isTagFree_of_plainValue h
      · cases h
    · split at h
      · split at h
        · next w hw =>
          obtain ⟨x, -, rfl⟩ := Option.map_eq_some_iff.1 hw
          rw [← Except.ok.inj h]
          rfl
        · cases h
      · split at h
        · split at h
          · rw [← Except.ok.inj h]
            rfl
          · cases h
        · rw [← Except.ok.inj h]
          rfl

/-- Where tags are not kept, what has a tag of its own has no value. -/
theorem withOwnTag_false {tag : Option String} {v : Decoded Value} {w : Value}
    (h : withOwnTag false tag v = .ok w) : v = .ok w := by
  unfold withOwnTag at h
  split at h
  · cases h
  · exact h

-- The induction goes along the two functions that turn the members of a node into values, so each
-- of them has its own statement.
mutual

theorem isTagFree_of_toValue : ∀ {n : Node} {v : Value}, n.toValue false = .ok v →
    v.isTagFree = true
  | .scalar tag s, v, h => by
    unfold toValue at h
    split at h
    · exact isTagFree_of_untaggedValue (withOwnTag_false h)
    · split at h
      · exact isTagFree_of_taggedValue h
      · exact isTagFree_of_untaggedValue h
  | .seq tag items, v, h => by
    unfold toValue at h
    obtain ⟨vs, hvs, rfl⟩ := map_eq_ok_iff.1 (withOwnTag_false h)
    exact itemsTagFree_of_itemValues hvs
  | .map tag entries, v, h => by
    unfold toValue at h
    obtain ⟨es, hes, rfl⟩ := map_eq_ok_iff.1 (withOwnTag_false h)
    exact entriesTagFree_of_entryValues hes
  | .unreadable, v, h => by
    unfold toValue at h
    cases h

theorem itemsTagFree_of_itemValues : ∀ {ns : List Node} {vs : List Value},
    itemValues false ns = .ok vs → Value.itemsTagFree vs = true
  | [], vs, h => by
    unfold itemValues at h
    rw [← Except.ok.inj h]
    rfl
  | n :: ns, vs, h => by
    unfold itemValues at h
    obtain ⟨v, hv, hrest⟩ := bind_eq_ok_iff.1 h
    obtain ⟨ws, hws, hvs⟩ := bind_eq_ok_iff.1 hrest
    rw [← Except.ok.inj hvs, Value.itemsTagFree, isTagFree_of_toValue hv,
      itemsTagFree_of_itemValues hws]
    rfl

theorem entriesTagFree_of_entryValues : ∀ {ns : List (Node × Node)} {es : List (Value × Value)},
    entryValues false ns = .ok es → Value.entriesTagFree es = true
  | [], es, h => by
    unfold entryValues at h
    rw [← Except.ok.inj h]
    rfl
  | (k, n) :: ns, es, h => by
    unfold entryValues at h
    obtain ⟨key, hkey, hrest⟩ := bind_eq_ok_iff.1 h
    obtain ⟨v, hv, hrest⟩ := bind_eq_ok_iff.1 hrest
    obtain ⟨others, hothers, hes⟩ := bind_eq_ok_iff.1 hrest
    rw [← Except.ok.inj hes, Value.entriesTagFree, isTagFree_of_toValue hkey,
      isTagFree_of_toValue hv, entriesTagFree_of_entryValues hothers]
    rfl

end

end Yaml.Node

instance : Untagged Yaml.Node where
  tagFree_of_content := Yaml.Node.isTagFree_of_toValue

/-! ### The jobs of a document -/

section Collections

variable {α : Type} [Schema α] [Settles α]

/-- The members of a list come back with the list. -/
theorem ReadsBack.of_mem {xs : List α} (h : ReadsBack xs) : ∀ x ∈ xs, ReadsBack x := by
  obtain ⟨vs, -, hvs⟩ := bind_eq_ok_iff.1 (h.read_write Value)
  exact readsBack_of_readAll hvs

/-- The values of a map come back with the map. -/
theorem ReadsBack.of_get? {m : Keyed α} (h : ReadsBack m) :
    ∀ key, ∀ a ∈ m.get? key, ReadsBack a := by
  obtain ⟨es, -, hes⟩ := bind_eq_ok_iff.1 (h.read_write Value)
  exact readsBack_of_readEntries (by rintro key a ⟨⟩) hes

namespace RecordField

variable {name : String}

theorem readsBack_of_list {xs : List α} (h : (listUnlessEmpty α name).Sound xs) :
    ∀ x ∈ xs, ReadsBack x := by
  intro x hx
  have hkept : xs.isEmpty = false := List.isEmpty_eq_false_iff.2 (List.ne_nil_of_mem hx)
  exact (h hkept).of_mem x hx

theorem readsBack_of_map {m : Keyed α} (h : (mapUnlessEmpty α name).Sound m) :
    ∀ key, ∀ a ∈ m.get? key, ReadsBack a := by
  intro key a ha
  have hkept : m.isEmpty = false := Keyed.isEmpty_eq_false_iff.2 ⟨key, a, ha⟩
  exact (h hkept).of_get? key a ha

end RecordField

end Collections

/-- All jobs of a document come back. -/
structure JobDocument.JobsReadBack (d : JobDocument) : Prop where
  presubmits : ∀ key, ∀ jobs ∈ d.presubmits.get? key, ∀ j ∈ jobs, ReadsBack j
  postsubmits : ∀ key, ∀ jobs ∈ d.postsubmits.get? key, ∀ j ∈ jobs, ReadsBack j
  periodics : ∀ j ∈ d.periodics, ReadsBack j

/-- **The jobs of a document come back** that was read from anything that keeps no tags. -/
theorem JobDocument.jobsReadBack {ν : Type} [Readable ν] [Untagged ν] {x : ν} {d : JobDocument}
    (h : read x = .ok d) : d.JobsReadBack := by
  obtain ⟨fs, -, hfs⟩ := bind_eq_ok_iff.1 h
  -- the sections of jobs are the first three fields
  obtain ⟨presubmits, hpresubmits, hrest⟩ := bind_eq_ok_iff.1 hfs
  obtain ⟨postsubmits, hpostsubmits, hrest⟩ := bind_eq_ok_iff.1 hrest
  obtain ⟨periodics, hperiodics, hrest⟩ := bind_eq_ok_iff.1 hrest
  obtain ⟨protection, -, hrest⟩ := bind_eq_ok_iff.1 hrest
  obtain ⟨keeper, -, hrest⟩ := bind_eq_ok_iff.1 hrest
  obtain ⟨plank, -, hrest⟩ := bind_eq_ok_iff.1 hrest
  obtain rfl := Except.ok.inj hrest
  have hbefore := (RecordField.mapUnlessEmpty (List Job) "presubmits").sound_of_read hpresubmits
  have hafter := (RecordField.mapUnlessEmpty (List Job) "postsubmits").sound_of_read hpostsubmits
  have hregular := (RecordField.listUnlessEmpty Job "periodics").sound_of_read hperiodics
  exact {
    presubmits := fun key jobs hjobs => (RecordField.readsBack_of_map hbefore key jobs hjobs).of_mem
    postsubmits := fun key jobs hjobs => (RecordField.readsBack_of_map hafter key jobs hjobs).of_mem
    periodics := RecordField.readsBack_of_list hregular }

/-- A job document was read from a value, or from a text. -/
def JobDocument.WasRead (d : JobDocument) : Prop :=
  (∃ x : Value, read x = .ok d) ∨ ∃ text, Yaml.read? text = some d

theorem JobDocument.WasRead.jobsReadBack {d : JobDocument} (h : d.WasRead) : d.JobsReadBack := by
  rcases h with ⟨x, hx⟩ | ⟨text, htext⟩
  · exact JobDocument.jobsReadBack hx
  · -- a text is read through its node, and a node keeps no tags
    unfold Yaml.read? at htext
    split at htext
    · next n _ =>
      have hn : read n = .ok d := by
        cases hread : (read n : Decoded JobDocument) with
        | error e =>
          rw [hread] at htext
          cases htext
        | ok d' =>
          rw [hread] at htext
          rw [Option.some.inj htext]
      exact JobDocument.jobsReadBack hn
    · cases htext

/-! ### Recovered resources -/

section Recover

variable {d : Documents}

theorem Recover.readsBack_jobSet? {jobs : Keyed (List Job)} {key : String}
    (h : ∀ js ∈ jobs.get? key, ∀ j ∈ js, ReadsBack j) :
    ∀ s ∈ jobSet? jobs key, ReadsBack s := by
  intro s hs
  unfold jobSet? at hs
  split at hs
  · next job others hget =>
    rw [← Option.some.inj hs]
    exact JobSet.readsBack (h _ hget)
  · cases hs

theorem Recover.readsBack_repositoryFragment (h : d.jobs.JobsReadBack) (key org repo : String) :
    ReadsBack (repositoryFragment d key org repo) :=
  Fragment.readsBack (readsBack_jobSet? (h.presubmits key))
    (readsBack_jobSet? (h.postsubmits key)) nofun

theorem Recover.readsBack_teamFragment (h : d.jobs.JobsReadBack) :
    ReadsBack (teamFragment d.jobs) := by
  -- the periodics are the only jobs that are not tied to a repository
  refine Fragment.readsBack nofun nofun fun s hs => ?_
  change s ∈ (if d.jobs.periodics.isEmpty then none else some _ : Option JobSet) at hs
  split at hs
  · cases hs
  · rw [← Option.some.inj hs]
    exact JobSet.readsBack h.periodics

/-- **Recovered schedulers come back.** -/
theorem readsBack_of_mem_schedulers {r : Recovered} (hjobs : d.jobs.JobsReadBack)
    (h : recover d = .ok r) : ∀ s ∈ r.schedulerResources, ReadsBack s := by
  have hexact := exact_of_recover h
  intro s hs
  obtain ⟨⟨name, f⟩, he, rfl⟩ := List.mem_map.1 hs
  have hget : r.schedulers.get? name = some f := Keyed.get?_eq_some_iff.2 he
  have hname : name ∈ r.names :=
    ((allocated_of_recover h).contains_iff name).1 (Option.isSome_iff_exists.2 ⟨f, hget⟩)
  refine Resource.readsBack ?_
  change ReadsBack f
  -- the scheduler is the one of the team or the one of a repository
  rcases List.mem_cons.1 hname with rfl | hmem
  · obtain rfl := Option.some.inj (hget.symm.trans hexact.team)
    exact Recover.readsBack_teamFragment hjobs
  · obtain ⟨repository, hrepository, rfl⟩ := List.mem_map.1 hmem
    obtain rfl := Option.some.inj (hget.symm.trans (hexact.own repository hrepository).2)
    exact Recover.readsBack_repositoryFragment hjobs _ _ _

end Recover

end SchedulerPolicy
