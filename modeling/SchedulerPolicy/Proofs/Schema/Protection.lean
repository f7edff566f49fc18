import SchedulerPolicy.Document.Protection
import SchedulerPolicy.Proofs.Schema.Resources

/-!
# Nodes that share their keys with rules

In the tree of branch protection the rules of a node stand beside the fields of the node. They are
read in two steps, and between the steps the keys of the rules are unknown keys, kept as values
without tags; the rules are then read from these, under the rules of buffered values. So the rules
have to come back from a buffered value, whichever they are (`WireRules.exists_slots`), and this is
why `ReadsBack` asks for more than typed values.

A node is a list of fields, its rules, and another list of fields (`RuledShape`). Nothing is lost
because the names of the fields and of the rules are all different: what is unknown to the node is
what the rules are written as, and nothing else (`RuledShape.others_shown`).
-/

namespace SchedulerPolicy

/-! ### Rules -/

instance : Faithful WireStatusChecks := Shape.faithful {
  fields := [.listUnlessEmpty String "contexts", .optional Bool "strict"]
  make := WireStatusChecks.mk }

instance : Faithful WireRestrictions := Shape.faithful {
  fields := [.listUnlessEmpty String "users", .listUnlessEmpty String "teams"]
  make := WireRestrictions.mk }

instance : Faithful WireReviews := Shape.faithful {
  fields := [.optional Bool "dismiss_stale_reviews", .optional Bool "require_code_owner_reviews",
    .optional UInt32 "required_approving_review_count"]
  make := WireReviews.mk }

namespace WireRules

/-- The shape of the rules of a node. -/
def shape : Shape WireRules where
  fields := [.optional Bool "protect", .optional WireStatusChecks "required_status_checks",
    .optional Bool "enforce_admins", .optional WireRestrictions "restrictions",
    .optional WireReviews "required_pull_request_reviews", .listUnlessEmpty String "include",
    .listUnlessEmpty String "exclude"]
  make := WireRules.mk

instance : RecordField.AllTotal shape.fields := by
  unfold shape
  infer_instance

theorem makes (r : WireRules) : Makes shape.fields shape.make r := by
  cases r
  repeat apply Exists.intro
  rfl

instance : Faithful WireRules := shape.faithful makes

theorem written : Written (fun r es => toEntries r = es) shape.fields shape.make [] := by
  repeat intro _
  rfl

/-- The slots of rules are full of what the rules are written as. -/
theorem exists_slots (r : WireRules) :
    ∃ slots, MadeOf shape.fields shape.make r slots ∧ r.toEntries = filled slots := by
  obtain ⟨slots, h⟩ := MadeOf.exists_of_makes r.makes
  exact ⟨slots, h, h.written written⟩

/-- Rules are read from the entries that they are written as. -/
theorem ofEntries_toEntries (r : WireRules) : ofEntries r.toEntries = .ok r := by
  obtain ⟨slots, hmade, hentries⟩ := r.exists_slots
  have hnodup := nodup_filled (Shape.nodup_slots hmade)
  rw [hentries]
  unfold ofEntries
  rw [Fields.find?_repeats_eq_none hnodup]
  exact Shape.readWith_shown hmade Buffered

end WireRules

/-! ### Nodes -/

/-- A type is read and written like a list of fields, rules, and another list of fields, all of them
beside each other. -/
structure RuledShape (ρ : Type) [Schema ρ] where
  before : List RecordField
  after : List RecordField
  make : Curried (WireRules → Curried ρ after) before
  nodup : (before.map (·.name) ++ WireRules.fieldNames ++ after.map (·.name)).Nodup := by decide
  written : Written (fun make es => ∀ rules : WireRules,
      Written (fun r es => write r = .record es) after (make rules) (es ++ rules.toEntries))
    before make [] := by
    repeat intro _
    rfl
  read_eq : ∀ {ν : Type} [Readable ν] (x : ν), read x =
    Fields.ofReadable (before.map (·.name) ++ after.map (·.name)) x >>= fun fs =>
      readWith before make fs fun make =>
        fs.others (before.map (·.name) ++ after.map (·.name)) >>= fun es =>
          WireRules.ofEntries es >>= fun rules => readWith after (make rules) fs pure := by
    intro ν _ x
    rfl

namespace RuledShape

variable {ρ : Type} [Schema ρ]

/-- The names of the fields. -/
def names (shape : RuledShape ρ) : List String :=
  shape.before.map (·.name) ++ shape.after.map (·.name)

section MadeOf

variable {shape : RuledShape ρ} {make : WireRules → Curried ρ shape.after} {rules : WireRules}
  {r : ρ} {before middle after : List Slot}

/-- Fields and rules are all under different names. -/
theorem nodup_slots (hbefore : MadeOf shape.before shape.make make before)
    (hrules : MadeOf WireRules.shape.fields WireRules.shape.make rules middle)
    (hafter : MadeOf shape.after (make rules) r after) :
    ((before ++ middle ++ after).map Prod.fst).Nodup := by
  rw [List.map_append, List.map_append, hbefore.names_eq, hrules.names_eq, hafter.names_eq]
  exact shape.nodup

theorem written_eq (hbefore : MadeOf shape.before shape.make make before)
    (hmiddle : rules.toEntries = filled middle)
    (hafter : MadeOf shape.after (make rules) r after) :
    write r = .record (filled (before ++ middle ++ after)) := by
  have hwritten := hafter.written (hbefore.written shape.written rules)
  rw [filled_append, filled_append, ← hmiddle]
  exact hwritten

theorem notMem_names {name : String} (h : name ∈ WireRules.fieldNames) : name ∉ shape.names := by
  -- names of fields stand in front of those of the rules or behind them
  have hapart := shape.nodup
  rw [List.append_assoc, List.nodup_append', List.nodup_append'] at hapart
  intro hname
  rcases List.mem_append.1 hname with hbefore | hafter
  · exact hapart.2.2 hbefore (List.mem_append_left _ h)
  · exact hapart.2.1.2.2 h hafter

/-- What is unknown to the node is what the rules are written as. -/
theorem others_shown (hbefore : MadeOf shape.before shape.make make before)
    (hrules : MadeOf WireRules.shape.fields WireRules.shape.make rules middle)
    (hafter : MadeOf shape.after (make rules) r after) (ν : Type) [Readable ν] [Shows ν] :
    (Fields.shown ν (filled (before ++ middle ++ after))).others shape.names =
      .ok (filled middle) := by
  rw [filled_append, filled_append]
  refine Fields.others_shown ?_ ?_ ?_ hrules.tagFree
  · exact fun e he => List.mem_append_left _ (hbefore.fst_mem_names e he)
  · exact fun e he => notMem_names (hrules.fst_mem_names e he)
  · exact fun e he => List.mem_append_right _ (hafter.fst_mem_names e he)

/-- A node that is made of sound values comes back. -/
theorem readsBack (hbefore : MadeOf shape.before shape.make make before)
    (hafter : MadeOf shape.after (make rules) r after) : ReadsBack r := by
  obtain ⟨middle, hrules, hentries⟩ := rules.exists_slots
  have hnodup := nodup_slots hbefore hrules hafter
  have htagFree : ∀ e ∈ filled (before ++ middle ++ after), e.2.isTagFree = true := by
    rw [filled_append, filled_append]
    exact List.forall_mem_append.2
      ⟨List.forall_mem_append.2 ⟨hbefore.tagFree, hrules.tagFree⟩, hafter.tagFree⟩
  refine .of_record (written_eq hbefore hentries hafter) htagFree fun ν _ _ => ?_
  -- every field is found in its slot, on either side of the rules
  have hfind : ∀ s ∈ before ++ middle ++ after,
      (Fields.shown ν (filled (before ++ middle ++ after))).find? s.1 = s.2.map Shows.of :=
    fun s hs => Fields.find?_filled hnodup hs
  rw [shape.read_eq]
  refine bind_eq_of_ok (Fields.ofReadable_shown (nodup_filled hnodup) _) ?_
  rw [hbefore.readWith_eq fun s hs =>
    hfind s (List.mem_append_left _ (List.mem_append_left _ hs))]
  -- the rules are read from the entries that are left, and these are their own
  refine bind_eq_of_ok (others_shown hbefore hrules hafter ν) ?_
  rw [← hentries]
  refine bind_eq_of_ok rules.ofEntries_toEntries ?_
  exact hafter.readWith_eq (fun s hs => hfind s (List.mem_append_right _ hs)) pure

end MadeOf

/-- What is read of a node comes back. -/
theorem settles (shape : RuledShape ρ) : Settles ρ where
  settles {ν _ _ x r} h := by
    rw [shape.read_eq] at h
    obtain ⟨fs, -, hfs⟩ := bind_eq_ok_iff.1 h
    obtain ⟨make, before, hbefore, hrest⟩ := MadeOf.of_readWith hfs
    obtain ⟨es, -, hes⟩ := bind_eq_ok_iff.1 hrest
    obtain ⟨rules, -, hrules⟩ := bind_eq_ok_iff.1 hes
    obtain ⟨r', after, hafter, hr⟩ := MadeOf.of_readWith hrules
    obtain rfl : r' = r := Except.ok.inj hr
    exact readsBack hbefore hafter

end RuledShape

instance : Settles RepoProtection := RuledShape.settles {
  before := []
  after := [.mapUnlessEmpty WireRules "branches"]
  make := RepoProtection.mk }

instance : Settles OrgProtection := RuledShape.settles {
  before := []
  after := [.mapUnlessEmpty RepoProtection "repos"]
  make := OrgProtection.mk }

instance : Settles ProtectionTree := RuledShape.settles {
  before := [.optional Bool "protect-tested-repos"]
  after := [.mapUnlessEmpty OrgProtection "orgs"]
  make := ProtectionTree.mk }

end SchedulerPolicy
