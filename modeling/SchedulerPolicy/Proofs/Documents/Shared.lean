import SchedulerPolicy.Proofs.Documents.Returned

/-!
# Sections that leaves share

Four sections have no place for single repositories. Welcome messages are grouped like queries and
come back in the order of the document. Periodic jobs and the report template go to the team, so
every leaf that comes back brings all of them, and the first leaf decides; the others add nothing
that is not there (`periodics_returned`, `reportTemplates_returned`). The published files go to the
repositories with the plugin that publishes them, all files to each. One such repository is enough
(`published_returned`), and without any the files would be lost.
-/

namespace SchedulerPolicy

variable {leaves : List Leaf}

/-- When leaves set one value or none, the first that sets one sets that value. -/
theorem findSome?_of_forall {α : Type} {value : Leaf → Option α} {v : Option α} {ls : List Leaf}
    (h : ∀ l ∈ ls, value l = v ∨ value l = none) (hset : ∃ l ∈ ls, value l = v) :
    ls.findSome? value = v := by
  cases v with
  | none => exact List.findSome?_eq_none_iff.2 fun l hl => (h l hl).elim id id
  | some a =>
    induction ls with
    | nil =>
      obtain ⟨l, hl, -⟩ := hset
      cases hl
    | cons l ls ih =>
      rw [List.forall_mem_cons] at h
      rw [List.findSome?_cons]
      rcases h.1 with hl | hl
      · rw [hl]
      · -- a leaf that sets nothing is passed over
        rw [hl]
        obtain ⟨m, hm, hvalue⟩ := hset
        refine ih h.2 ⟨m, (List.mem_cons.1 hm).resolve_left fun heq => ?_, hvalue⟩
        rw [heq, hl] at hvalue
        cases hvalue

/-! ### Welcome messages -/

/-- A welcome entry as a group: its label is its message. -/
def WelcomeEntry.pooled (w : WelcomeEntry) : String × List String := (w.messageTemplate, w.repos)

theorem WelcomeEntry.pooled_injective {v w : WelcomeEntry} (h : v.pooled = w.pooled) : v = w := by
  obtain ⟨hmessage, hrepos⟩ := Prod.mk.inj h
  cases v
  cases w
  rw [WelcomeEntry.mk.injEq]
  exact ⟨hrepos, hmessage⟩

/-- Adding a repository to a message is pooling. -/
theorem map_pooled_addWelcome (ws : List WelcomeEntry) (key message : String) :
    (Compile.addWelcome ws (key, message)).map WelcomeEntry.pooled =
      pool (ws.map WelcomeEntry.pooled) (message, [key]) := by
  induction ws with
  | nil => rfl
  | cons w ws ih =>
    unfold Compile.addWelcome
    by_cases h : w.messageTemplate = message
    · have h' : w.pooled.1 = (message, [key]).1 := h
      rw [if_pos (beq_iff_eq.2 h), List.map_cons, List.map_cons, pool_cons_of_eq h']
      congr 1
      unfold WelcomeEntry.names WelcomeEntry.pooled appendMissing
      rw [List.foldl_cons, List.foldl_nil]
      split <;> rfl
    · have h' : w.pooled.1 ≠ (message, [key]).1 := h
      rw [if_neg fun hb => h (beq_iff_eq.1 hb), List.map_cons, List.map_cons, pool_cons_of_ne h',
        ih]

/-- The messages of a leaf. -/
def Leaf.messages (l : Leaf) : List String :=
  (itemsOf l.fragment.welcome).map (·.messageTemplate)

/-- The welcome entries of the documents are the messages of the leaves, grouped. -/
theorem map_pooled_welcome (leaves : List Leaf) :
    (Compile.pluginDocument leaves).welcome.map WelcomeEntry.pooled =
      grouped Leaf.key Leaf.messages leaves [] := by
  -- the loop over the messages pools them
  have hfold : ∀ (es : List (String × String)) (ws : List WelcomeEntry),
      (es.foldl Compile.addWelcome ws).map WelcomeEntry.pooled =
        poolAll (ws.map WelcomeEntry.pooled) (es.map fun e => (e.2, [e.1])) := by
    intro es
    induction es with
    | nil => exact fun _ => rfl
    | cons e es ih =>
      intro ws
      rw [List.foldl_cons, ih, map_pooled_addWelcome]
      rfl
  have hleaf : ∀ l : Leaf, l.welcomes.map (fun e => (e.2, [e.1])) =
      l.messages.map fun message => (message, [l.key]) := by
    intro l
    unfold Leaf.welcomes Leaf.messages
    rw [List.map_map, List.map_map]
    rfl
  change ((leaves.flatMap Leaf.welcomes).foldl Compile.addWelcome []).map _ = _
  rw [hfold, grouped_eq_poolAll, List.map_flatMap]
  simp only [hleaf]
  rfl

/-- The messages of the entries that list a key are the labels of the groups that do. -/
theorem map_message_filter (ws : List WelcomeEntry) (key : String) :
    (ws.filter (·.names key)).map (·.messageTemplate) =
      named key (ws.map WelcomeEntry.pooled) := by
  unfold named labels
  rw [List.filter_map, List.map_map]
  rfl

/-- The messages of a leaf that comes back are read from the groups. -/
theorem messages_leaf (leaves : List Leaf) (l : Leaf) :
    (Recover.leaf (documents leaves) l.org l.repo).messages =
      named l.key (grouped Leaf.key Leaf.messages leaves []) := by
  rw [← map_pooled_welcome, ← map_message_filter]
  change (itemsOf (onto (listOf _) none)).map _ = _
  rw [onto_none, itemsOf_listOf, List.map_map]
  rfl

theorem welcome_returned (h : Recoverable leaves) :
    (documents (returned (documents leaves) leaves)).plugins.welcome =
      (documents leaves).plugins.welcome := by
  refine (List.map_inj_right fun _ _ => WelcomeEntry.pooled_injective).1 ?_
  refine (map_pooled_welcome _).trans (Eq.trans ?_ (map_pooled_welcome leaves).symm)
  refine grouped_restored h.nodup (fun _ _ _ => rfl) (fun l hl hdropped => ?_) List.nodup_nil
    (fun _ _ _ => List.not_mem_nil) fun l _ _ => messages_leaf leaves l
  unfold Leaf.messages
  rw [(h.unlisted hl hdropped).2.2.2.1, List.map_nil]

/-! ### Periodic jobs -/

/-- Adding periodic jobs is appending those of new names. -/
theorem foldl_addPeriodic (own jobs : List Job) :
    jobs.foldl Compile.addPeriodic own = appendNew Job.name own jobs := rfl

theorem periodics_leaf (d : Documents) (org repo : String) :
    ((Recover.leaf d org repo).fragment.periodics.map (·.items)).getD [] = d.jobs.periodics := by
  change ((onto none (if d.jobs.periodics.isEmpty then none
    else some ({ items := d.jobs.periodics } : JobSet))).map (·.items)).getD [] = _
  rw [none_onto]
  cases d.jobs.periodics <;> rfl

/-- When all leaves have the same periodic jobs, these are the jobs of the first, of one name the
first. -/
theorem periodics_of_forall {jobs : List Job} {ls : List Leaf} (hne : ls ≠ [])
    (h : ∀ l ∈ ls, (l.fragment.periodics.map (·.items)).getD [] = jobs) :
    Compile.periodics ls = appendNew Job.name [] jobs := by
  -- once all names are there, further leaves add no job
  have hfold : ∀ ls : List Leaf,
      (∀ l ∈ ls, (l.fragment.periodics.map (·.items)).getD [] = jobs) →
      appendNew Job.name (appendNew Job.name [] jobs)
          (ls.flatMap fun l => (l.fragment.periodics.map (·.items)).getD []) =
        appendNew Job.name [] jobs := by
    intro ls
    induction ls with
    | nil => exact fun _ => rfl
    | cons l ls ih =>
      intro hjobs
      rw [List.forall_mem_cons] at hjobs
      have hnames : ∀ job ∈ jobs, job.name ∈ (appendNew Job.name [] jobs).map Job.name :=
        fun job hjob => keys_appendNew.2 (Or.inr (List.mem_map_of_mem hjob))
      rw [List.flatMap_cons, appendNew_append, hjobs.1, appendNew_of_keys_subset hnames, ih hjobs.2]
  unfold Compile.periodics
  rw [foldl_addPeriodic]
  cases ls with
  | nil => exact absurd rfl hne
  | cons l ls =>
    rw [List.forall_mem_cons] at h
    rw [List.flatMap_cons, appendNew_append, h.1]
    exact hfold ls h.2

theorem periodics_returned (h : Recoverable leaves) :
    Compile.periodics (returned (documents leaves) leaves) = Compile.periodics leaves := by
  have hnodup : ((Compile.periodics leaves).map Job.name).Nodup :=
    nodup_keys_appendNew List.nodup_nil
  have hall : ∀ l ∈ returned (documents leaves) leaves,
      (l.fragment.periodics.map (·.items)).getD [] = Compile.periodics leaves :=
    forall_mem_restored fun l _ _ => periodics_leaf (documents leaves) l.org l.repo
  rw [periodics_of_forall (h.returned_ne_nil _) hall]
  exact appendNew_of_nodup (by rwa [List.nil_append])

/-! ### The report template -/

theorem get?_reportTemplates (leaves : List Leaf) :
    (Compile.reportTemplates leaves).get? everyRepository =
      leaves.findSome? Leaf.reportTemplate? := by
  unfold Compile.reportTemplates
  cases leaves.findSome? Leaf.reportTemplate? with
  | none => rfl
  | some url => rfl

theorem reportTemplate?_leaf (d : Documents) (org repo : String) :
    (Recover.leaf d org repo).reportTemplate? =
      d.jobs.plank.reportTemplates.get? everyRepository := by
  -- the link is wrapped into an attachment of the team and unwrapped again
  have hback : ∀ found : Option String, (itemsOf (onto none (found.map fun url =>
      ({ items := [{ name := reportTemplateAttachment, urls := [url] }] } :
        ReplaceList Attachment)))).findSome? (fun a =>
          if a.name == reportTemplateAttachment then a.urls.head? else none) = found := by
    intro found
    rw [none_onto]
    cases found <;> rfl
  exact hback _

theorem reportTemplates_returned (h : Recoverable leaves) :
    Compile.reportTemplates (returned (documents leaves) leaves) =
      Compile.reportTemplates leaves := by
  have hall : ∀ l ∈ returned (documents leaves) leaves,
      l.reportTemplate? = leaves.findSome? Leaf.reportTemplate? := forall_mem_restored fun l _ _ =>
    (reportTemplate?_leaf (documents leaves) l.org l.repo).trans (get?_reportTemplates leaves)
  obtain ⟨l, hl⟩ := List.exists_mem_of_ne_nil _ (h.returned_ne_nil (documents leaves))
  unfold Compile.reportTemplates
  rw [findSome?_of_forall (fun l hl => Or.inl (hall l hl)) ⟨l, hl, hall l hl⟩]

/-! ### Published files -/

/-- Of a path, the first leaf that publishes it decides. -/
theorem get?_published (leaves : List Leaf) (path : String) :
    (Compile.published leaves).get? path =
      leaves.findSome? fun l => l.publishedFiles.lookup path := by
  have hlookup : ∀ ls : List Leaf, (ls.flatMap Leaf.publishedFiles).lookup path =
      ls.findSome? fun l => l.publishedFiles.lookup path := by
    intro ls
    induction ls with
    | nil => rfl
    | cons l ls ih =>
      rw [List.flatMap_cons, List.lookup_append, ih, List.findSome?_cons]
      cases l.publishedFiles.lookup path <;> rfl
  unfold Compile.published
  rw [Keyed.get?_foldl_insertNew, Keyed.get?_empty, Option.none_or, hlookup]

/-- All files of the documents come back in a repository with the plugin. -/
theorem publishedFiles_leaf (h : Recoverable leaves) {l : Leaf} (hl : l ∈ leaves) :
    (Recover.leaf (documents leaves) l.org l.repo).publishedFiles =
      if configUpdaterPlugin ∈ l.fragment.pluginNames then (Compile.published leaves).entries
      else [] := by
  let files := Compile.published leaves
  let names := Recover.withOrgEntries (documents leaves).plugins.plugins l.key l.org
  have hnames : names = appendMissing [] l.fragment.pluginNames := by
    have hitems := withOrgEntries_distinctByKey (·.fragment.pluginNames) h hl
    rwa [onto_none, itemsOf_listOf] at hitems
  have hplugin : names.contains configUpdaterPlugin = true ↔
      configUpdaterPlugin ∈ l.fragment.pluginNames := by
    rw [List.contains_iff_mem, hnames, appendMissing_eq_appendNew, mem_appendNew]
    exact or_iff_right List.not_mem_nil
  have hleaf : (Recover.leaf (documents leaves) l.org l.repo).fragment.configUpdater =
      if names.contains configUpdaterPlugin && !files.isEmpty then some { map := some files }
      else none := onto_none _
  unfold Leaf.publishedFiles
  rw [hleaf]
  by_cases hmem : configUpdaterPlugin ∈ l.fragment.pluginNames
  · rw [if_pos hmem, hplugin.2 hmem, Bool.true_and]
    cases hempty : files.isEmpty with
    | true =>
      -- no files come back as no settings
      exact (List.isEmpty_iff.1 hempty).symm
    | false => rfl
  · rw [if_neg hmem, Bool.eq_false_iff.2 fun hb => hmem (hplugin.1 hb)]
    rfl

theorem published_returned (h : Recoverable leaves) :
    Compile.published (returned (documents leaves) leaves) = Compile.published leaves := by
  let files := Compile.published leaves
  have hleaf : ∀ l ∈ leaves, (Recover.leaf (documents leaves) l.org l.repo).publishedFiles =
      if configUpdaterPlugin ∈ l.fragment.pluginNames then files.entries else [] :=
    fun l hl => publishedFiles_leaf h hl
  have hall : ∀ m ∈ returned (documents leaves) leaves,
      m.publishedFiles = files.entries ∨ m.publishedFiles = [] := by
    refine forall_mem_restored fun l hl _ => ?_
    rw [hleaf l hl]
    split
    · exact Or.inl rfl
    · exact Or.inr rfl
  -- some leaf publishes the files, if only because there are none
  have hsome : ∃ m ∈ returned (documents leaves) leaves, m.publishedFiles = files.entries := by
    by_cases hfiles : ∃ l ∈ leaves, l.publishedFiles ≠ []
    · obtain ⟨l, hl, hplugin⟩ := h.published hfiles
      have hanchored : l.anchored = true := by
        refine Leaf.anchored_iff.2 ⟨.plugins, ?_⟩
        change (!l.fragment.pluginNames.isEmpty) = true
        rw [List.isEmpty_eq_false_iff.2 (List.ne_nil_of_mem hplugin)]
        rfl
      refine ⟨_, List.mem_map.2 ⟨l, List.mem_filter.2 ⟨hl, hanchored⟩, rfl⟩, ?_⟩
      exact (hleaf l hl).trans (if_pos hplugin)
    · have hnone : files.entries = [] := by
        refine List.isEmpty_iff.1 (Keyed.isEmpty_iff.2 fun path => ?_)
        rw [get?_published]
        refine List.findSome?_eq_none_iff.2 fun l hl => ?_
        rw [Classical.not_not.1 fun hne => hfiles ⟨l, hl, hne⟩]
        rfl
      obtain ⟨m, hm⟩ := List.exists_mem_of_ne_nil _ (h.returned_ne_nil (documents leaves))
      exact ⟨m, hm, (hall m hm).elim id fun hm => hm.trans hnone.symm⟩
  refine Keyed.ext_get? fun path => ?_
  rw [get?_published]
  refine findSome?_of_forall (fun m hm => ?_) ?_
  · rcases hall m hm with hm | hm
    · exact Or.inl (congrArg (List.lookup path) hm)
    · exact Or.inr (congrArg (List.lookup path) hm)
  · obtain ⟨m, hm, hfiles⟩ := hsome
    exact ⟨m, hm, congrArg (List.lookup path) hfiles⟩

end SchedulerPolicy
