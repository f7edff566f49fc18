import SchedulerPolicy.Proofs.Merge.Laws

/-!
# Building chains

A chain is built from its highest fragment down. Read from the other end it is a recursion on the
chain: build what lies above the lowest fragment, and fill the result in from that fragment
(`build_cons`). The fragment that comes out, if one does, is `stack chain`, the fragments of the
chain laid over one another (`eq_stack_of_build`); and a chain of canonical fragments is always
built (`build_of_canonical`).

With that the algebra of chains is the algebra of `onto`. A chain may be cut into consecutive blocks
anywhere, each block built on its own, and the results built again (`build_blocks`). The empty
fragment may stand anywhere in a chain and changes nothing; below or above a single fragment it
leaves that fragment, canonical or not (`build_neutral`).
-/

namespace SchedulerPolicy

namespace Fragment

/-- The fragments of a chain, lowest first, laid over one another. -/
def stack (chain : List Fragment) : Fragment := chain.foldr (fun f upper => onto upper f) ∅

@[simp] theorem stack_nil : stack [] = ∅ := rfl

theorem stack_cons (f : Fragment) (chain : List Fragment) :
    stack (f :: chain) = onto (stack chain) f := rfl

/-! ### One step -/

theorem fill_empty (f : Fragment) : fill f ∅ = .ok f := by
  refine fill_eq_ok_iff.2 ⟨fun s a _ b hb => ?_, (onto_empty f).symm⟩
  -- the empty fragment has no job section that could be ambiguous
  cases s <;> cases hb

theorem empty_fill (f : Fragment) : fill ∅ f = .ok f := by
  rw [Canonical.empty.fill_eq, empty_onto]

/-- A chain is filled in from its highest fragment down, starting from nothing. -/
theorem build_eq_foldlM (chain : List Fragment) : build chain = chain.reverse.foldlM fill ∅ := by
  unfold build
  cases chain.reverse with
  | nil => rfl
  | cons seed donors =>
    rw [List.foldlM_cons, empty_fill]
    rfl

/-- **One link more.** The lowest fragment of a chain fills in what the others build. -/
theorem build_cons (f : Fragment) (chain : List Fragment) :
    build (f :: chain) = build chain >>= (fill · f) := by
  -- reversed, the lowest fragment is the last donor of the loop
  rw [build_eq_foldlM, List.reverse_cons, List.foldlM_append, ← build_eq_foldlM]
  congr 1
  funext upper
  rw [List.foldlM_cons]
  cases fill upper f <;> rfl

theorem build_singleton (f : Fragment) : build [f] = .ok f := rfl

/-- Of two fragments the lower one fills in the higher one. -/
theorem build_pair (lower upper : Fragment) : build [lower, upper] = fill upper lower := by
  rw [build_cons, build_singleton]
  rfl

/-- **The empty fragment is neutral**, whichever side it is on. -/
theorem build_neutral (f : Fragment) :
    build [f] = .ok f ∧ build [∅, f] = .ok f ∧ build [f, ∅] = .ok f := by
  refine ⟨build_singleton f, ?_, ?_⟩
  · rw [build_pair, fill_empty]
  · rw [build_pair, empty_fill]

/-- Whatever a chain builds is its fragments laid over one another. -/
theorem eq_stack_of_build {chain : List Fragment} {f : Fragment} (h : build chain = .ok f) :
    f = stack chain := by
  induction chain generalizing f with
  | nil =>
    cases h
    rfl
  | cons g chain ih =>
    rw [build_cons, bind_eq_ok_iff] at h
    -- the upper part is built first, and by induction it is stacked
    obtain ⟨upper, hupper, hfill⟩ := h
    obtain ⟨-, rfl⟩ := fill_eq_ok_iff.1 hfill
    rw [stack_cons, ih hupper]

/-! ### Chains of canonical fragments -/

/-- Canonical fragments laid over one another are canonical. -/
theorem canonical_stack {chain : List Fragment} (h : ∀ f ∈ chain, f.Canonical) :
    (stack chain).Canonical := by
  induction chain with
  | nil => exact Canonical.empty
  | cons f chain ih =>
    rw [List.forall_mem_cons] at h
    exact (ih h.2).onto h.1

/-- **A chain of canonical fragments is built without fail.** -/
theorem build_of_canonical {chain : List Fragment} (h : ∀ f ∈ chain, f.Canonical) :
    build chain = .ok (stack chain) := by
  induction chain with
  | nil => rfl
  | cons f chain ih =>
    rw [List.forall_mem_cons] at h
    -- what is filled in is canonical as far as it has been built
    rw [build_cons, ih h.2, stack_cons]
    exact (canonical_stack h.2).fill_eq f

/-- A chain laid on top of another. -/
theorem stack_append {below : List Fragment} (h : ∀ f ∈ below, f.Canonical)
    (above : List Fragment) : stack (below ++ above) = onto (stack above) (stack below) := by
  induction below with
  | nil => rw [List.nil_append, stack_nil, onto_empty]
  | cons f below ih =>
    rw [List.forall_mem_cons] at h
    rw [List.cons_append, stack_cons, ih h.2, stack_cons,
      (canonical_stack h.2).onto_assoc]

/-- Consecutive blocks may be stacked first. -/
theorem stack_map_stack {blocks : List (List Fragment)}
    (h : ∀ f ∈ blocks.flatten, f.Canonical) :
    stack (blocks.map stack) = stack blocks.flatten := by
  induction blocks with
  | nil => rfl
  | cons block blocks ih =>
    rw [List.flatten_cons, List.forall_mem_append] at h
    rw [List.map_cons, stack_cons, ih h.2, List.flatten_cons, stack_append h.1]

/-- Blocks of canonical fragments are all built. -/
theorem mapM_build_of_canonical {blocks : List (List Fragment)}
    (h : ∀ f ∈ blocks.flatten, f.Canonical) :
    blocks.mapM build = .ok (blocks.map stack) := by
  induction blocks with
  | nil => rfl
  | cons block blocks ih =>
    rw [List.flatten_cons, List.forall_mem_append] at h
    rw [List.mapM_cons, build_of_canonical h.1, ih h.2]
    rfl

/-- **Chains may be built block by block.** A fragment on its own is built to itself, two are built
by filling in, and the empty fragment on either side changes nothing. A chain of canonical fragments
is built, to a canonical fragment; however it is cut into consecutive blocks, every block is built,
and what the blocks build is built to the same fragment; and an empty fragment may be put in
anywhere. -/
theorem build_blocks :
    (∀ f : Fragment, build [f] = .ok f ∧ build [∅, f] = .ok f ∧ build [f, ∅] = .ok f) ∧
    (∀ lower upper : Fragment, build [lower, upper] = fill upper lower) ∧
    (∀ f : Fragment, fill ∅ f = .ok f ∧ fill f ∅ = .ok f) ∧
    ∀ chain : List Fragment, (∀ f ∈ chain, f.Canonical) →
      ∃ whole, build chain = .ok whole ∧ whole.Canonical ∧
        (∀ blocks : List (List Fragment), blocks.flatten = chain →
          ∃ parts, blocks.mapM build = .ok parts ∧ (∀ part ∈ parts, part.Canonical) ∧
            build parts = .ok whole) ∧
        ∀ below above : List Fragment, below ++ above = chain →
          build (below ++ ∅ :: above) = .ok whole := by
  refine ⟨build_neutral, build_pair, fun f => ⟨empty_fill f, fill_empty f⟩, fun chain h => ?_⟩
  refine ⟨stack chain, build_of_canonical h, canonical_stack h, ?_, ?_⟩
  · -- what a block builds is canonical, so the blocks are built like fragments
    rintro blocks rfl
    have hparts : ∀ part ∈ blocks.map stack, part.Canonical := by
      intro part hpart
      obtain ⟨block, hblock, rfl⟩ := List.mem_map.1 hpart
      exact canonical_stack fun f hf => h f (List.mem_flatten.2 ⟨block, hblock, hf⟩)
    refine ⟨blocks.map stack, mapM_build_of_canonical h, hparts, ?_⟩
    rw [build_of_canonical hparts, stack_map_stack h]
  · -- the empty fragment is canonical and adds nothing where it stands
    rintro below above rfl
    rw [List.forall_mem_append] at h
    have hwith : ∀ f ∈ below ++ ∅ :: above, f.Canonical :=
      List.forall_mem_append.2 ⟨h.1, List.forall_mem_cons.2 ⟨Canonical.empty, h.2⟩⟩
    rw [build_of_canonical hwith, stack_append h.1, stack_append h.1, stack_cons, onto_empty]

/-- A group's list that replaces, cut off from the repository's own, still hides the team's; and the
repository's own fragment is built to itself, with or without an empty one on either side. -/
theorem build_blocks_of_three :
    let team : Fragment := {
      presubmits := some { items := [{ name := "lint" }] }
      plugins := some { items := ["lgtm", "hold"] } }
    let group : Fragment := {
      plugins := some { items := ["lgtm", "size"], replace := true }
      merger := some { queries := some [{ repos := ["acme/a"] }, { labels := ["lgtm"] }] } }
    let own : Fragment := {
      presubmits := some {
        items := [{ name := "test" }, { name := "lint", optional := some true }] }
      plugins := some { items := ["trigger"] } }
    (∀ f ∈ [team, group, own], f.Canonical) ∧
      (build [own] = .ok own ∧ build [∅, own] = .ok own ∧ build [own, ∅] = .ok own) ∧
      ∃ whole, build [team, group, own] = .ok whole ∧
        build [team, ∅, group, own] = .ok whole ∧
        ∃ parts, [[team, group], [own]].mapM build = .ok parts ∧ build parts = .ok whole := by
  intro team group own
  have hcanonical : ∀ f ∈ [team, group, own], f.Canonical := by decide
  obtain ⟨hneutral, -, -, hchain⟩ := build_blocks
  obtain ⟨whole, hwhole, -, hblocks, hanywhere⟩ := hchain [team, group, own] hcanonical
  obtain ⟨parts, hparts, -, hbuild⟩ := hblocks [[team, group], [own]] rfl
  exact ⟨hcanonical, hneutral own, whole, hwhole, hanywhere [team] [group, own] rfl, parts, hparts,
    hbuild⟩

end Fragment

end SchedulerPolicy
