import SchedulerPolicy.Proofs.Documents.Sections
import SchedulerPolicy.Proofs.Text.Trimming

/-!
# Leaves that have no documents

Two things might keep leaves from being compiled: a leaf without a name, and branch protection that
cannot be filled in from one leaf to the next. The second never comes about. Of all that is filled
in only job sets put up resistance, and protection holds none at any depth (`ProtectionFills`), so
the table that gathers it takes in every leaf, those of one repository included.

That leaves the names. `compile` checks all of them before it fills anything in; a walk that does
both leaf by leaf stops at the same leaf with the same error, because the check of a leaf is the
only thing that can stop it (`foldlM_addLeaf`). So the first leaf without a name is the one that is
refused (`compile_eq_error_iff`).
-/

namespace SchedulerPolicy

variable {leaves : List Leaf}

/-! ### Names -/

/-- A leaf whose organisation or repository is gone once it is trimmed. -/
def Leaf.Nameless (l : Leaf) : Prop := Text.trim l.org = "" ∨ Text.trim l.repo = ""

theorem Leaf.not_nameless_iff {l : Leaf} :
    ¬l.Nameless ↔ Text.isBlank l.org = false ∧ Text.isBlank l.repo = false := by
  unfold Nameless
  rw [Text.trim_eq_empty_iff, Text.trim_eq_empty_iff, not_or, Bool.not_eq_true, Bool.not_eq_true]

theorem checkNames_eq_error_iff {l : Leaf} {e : CompileError} :
    l.checkNames = .error e ↔ l.Nameless ∧ e = .invalidRepository l.org l.repo := by
  unfold Leaf.checkNames Leaf.Nameless
  rw [Text.trim_eq_empty_iff, Text.trim_eq_empty_iff, ← Bool.or_eq_true]
  cases Text.isBlank l.org || Text.isBlank l.repo with
  | true =>
    rw [if_pos rfl, Except.error.injEq, eq_comm]
    exact ⟨fun h => ⟨rfl, h⟩, And.right⟩
  | false => exact ⟨nofun, fun h => nomatch h.1⟩

/-- The check stops at the first leaf without a name. -/
theorem forM_checkNames_eq_error_iff {e : CompileError} :
    leaves.forM Leaf.checkNames = .error e ↔
      ∃ before l after, leaves = before ++ l :: after ∧ (∀ m ∈ before, ¬m.Nameless) ∧
        l.Nameless ∧ e = .invalidRepository l.org l.repo := by
  simp only [forM_eq_error_iff, checkNames_eq_ok_iff, checkNames_eq_error_iff,
    Leaf.not_nameless_iff]

/-! ### Protection -/

/-- Any two values of a type can be filled in from one another. -/
def FillsAlways (α : Type) [Fill α] : Prop := ∀ own donor : α, ∃ filled, fill own donor = .ok filled

theorem fillsAlways_of_totalFill {α : Type} [Fill α] [Onto α] [TotalFill α] : FillsAlways α :=
  fun own donor => ⟨_, fill_eq own donor⟩

/-- Branch protection is filled in without fail, and so is everything in it: rules and their blocks,
lists with a flag, rules by branch and single settings. -/
structure ProtectionFills : Prop where
  protection : FillsAlways Protection
  rules : FillsAlways (Option BranchRules)
  branches : FillsAlways (Option (Keyed BranchRules))
  statusChecks : FillsAlways (Option StatusChecks)
  restrictions : FillsAlways (Option PushRestrictions)
  reviews : FillsAlways (Option ReviewRules)
  lists : FillsAlways (Option (ReplaceList String))
  switches : FillsAlways (Option Bool)
  counts : FillsAlways (Option UInt32)

theorem protectionFills : ProtectionFills where
  protection := fillsAlways_of_totalFill
  rules := fillsAlways_of_totalFill
  branches := fillsAlways_of_totalFill
  statusChecks := fillsAlways_of_totalFill
  restrictions := fillsAlways_of_totalFill
  reviews := fillsAlways_of_totalFill
  lists := fillsAlways_of_totalFill
  switches := fillsAlways_of_totalFill
  counts := fillsAlways_of_totalFill

/-! ### Leaf by leaf -/

/-- Checks the names of a leaf and fills in its protection. -/
def Compile.addLeaf (table : ProtectionTable) (l : Leaf) : Except CompileError ProtectionTable := do
  l.checkNames
  addProtection table l

/-- A walk that takes one leaf after the other is stopped by names only. -/
theorem foldlM_addLeaf (leaves : List Leaf) (table : Compile.ProtectionTable) :
    leaves.foldlM Compile.addLeaf table =
      (leaves.forM Leaf.checkNames).map fun _ => leaves.foldl putProtection table := by
  induction leaves generalizing table with
  | nil => rfl
  | cons l leaves ih =>
    rw [List.foldlM_cons]
    unfold Compile.addLeaf
    change ((l.checkNames >>= fun _ => Compile.addProtection table l) >>= _) =
      (l.checkNames >>= fun _ => leaves.forM Leaf.checkNames).map _
    cases l.checkNames with
    | error e => rfl
    | ok =>
      -- whatever the table holds, the protection of the leaf goes into it
      change (Compile.addProtection table l >>= leaves.foldlM Compile.addLeaf) = _
      rw [addProtection_eq]
      exact ih (putProtection table l)

/-- Checked leaves have their documents. -/
theorem compile_eq (leaves : List Leaf) :
    compile leaves = (leaves.forM Leaf.checkNames).map fun _ => documents leaves := by
  unfold compile
  rw [protectionTree_eq]
  cases leaves.forM Leaf.checkNames <;> rfl

/-! ### What is refused -/

/-- **Leaves have no documents only for want of a name.** They are refused exactly when one of them
is nameless, and over the first that is; whether names are checked before anything else or leaf by
leaf is the same. Branch protection is never what stands in the way: not when a leaf is put into a
table, whatever the table holds, and not anywhere inside of it. -/
theorem compile_eq_error_iff (leaves : List Leaf) :
    ((∃ e, compile leaves = .error e) ↔ ∃ l ∈ leaves, l.Nameless) ∧
    (∀ e, compile leaves = .error e ↔
      ∃ before l after, leaves = before ++ l :: after ∧ (∀ m ∈ before, ¬m.Nameless) ∧
        l.Nameless ∧ e = .invalidRepository l.org l.repo) ∧
    (∀ e, compile leaves = .error e ↔ leaves.foldlM Compile.addLeaf ∅ = .error e) ∧
    (∀ key cause, compile leaves ≠ .error (.protection key cause)) ∧
    (∀ table l e, Compile.addProtection table l ≠ .error e) ∧ ProtectionFills := by
  have hfirst : ∀ e, compile leaves = .error e ↔
      ∃ before l after, leaves = before ++ l :: after ∧ (∀ m ∈ before, ¬m.Nameless) ∧
        l.Nameless ∧ e = .invalidRepository l.org l.repo := by
    intro e
    rw [compile_eq, map_eq_error_iff, forM_checkNames_eq_error_iff]
  refine ⟨?some, hfirst, ?walk, ?reachable, ?table, protectionFills⟩
  case some =>
    constructor
    · rintro ⟨e, he⟩
      obtain ⟨before, l, after, rfl, -, hl, -⟩ := (hfirst e).1 he
      exact ⟨l, List.mem_append_right before List.mem_cons_self, hl⟩
    · rintro ⟨l, hmem, hl⟩
      -- leaves that have documents are none of them nameless
      cases hd : compile leaves with
      | error e => exact ⟨e, rfl⟩
      | ok d => exact absurd hl (Leaf.not_nameless_iff.2 ((compile_eq_ok_iff.1 hd).1 l hmem))
  case walk =>
    intro e
    -- both come to the same check with something made of its result
    rw [compile_eq, foldlM_addLeaf, map_eq_error_iff, map_eq_error_iff]
  case reachable =>
    intro key cause hd
    -- the one error there is tells of a name
    obtain ⟨before, l, after, -, -, -, he⟩ := (hfirst _).1 hd
    cases he
  case table =>
    intro table l e he
    rw [addProtection_eq] at he
    cases he

end SchedulerPolicy
