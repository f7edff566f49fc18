import SchedulerPolicy.Proofs.Schema.Nodes

/-!
# What is kept of an environment

An environment is read from a document as the fields it has, and written back with a default
scheduler. What the value of the document has is compared with what the value that is written has,
path by path (`Value.at?`):

* the settings of the team come back whole, as unknown keys are kept there (`at?_setting`);
* the texts of the other fields come back as they were (`at?_textField`);
* nothing else is written (`place_of_at?`), so a key that is none of the fields is lost.

The three are put together in `annotates_withDefaultScheduler`.
-/

namespace SchedulerPolicy

/-! ### Paths into a value -/

namespace Value

/-- What stands at the end of a path of text keys. -/
def at? (v : Value) : List String → Option Value
  | [] => some v
  | key :: path => (v.get? key).bind fun x => x.at? path

theorem at?_cons (v : Value) (key : String) (path : List String) :
    v.at? (key :: path) = (v.get? key).bind fun x => x.at? path := rfl

theorem at?_singleton (v : Value) (key : String) : v.at? [key] = v.get? key :=
  Option.bind_fun_some _

/-- A path into a record goes through one of its entries. -/
theorem exists_mem_of_at?_record {es : List (String × Value)} {key : String} {path : List String}
    {x : Value} (h : (record es).at? (key :: path) = some x) :
    ∃ y, (key, y) ∈ es ∧ y.at? path = some x := by
  rw [at?_cons, get?_record] at h
  obtain ⟨y, hy, hx⟩ := Option.bind_eq_some_iff.1 h
  obtain ⟨before, after, rfl, -⟩ := List.lookup_eq_some_iff.1 hy
  exact ⟨y, List.mem_append_right _ List.mem_cons_self, hx⟩

/-- No path goes into a text. -/
theorem eq_of_at?_string {s : String} {path : List String} {x : Value}
    (h : (string s).at? path = some x) : path = [] ∧ x = .string s := by
  cases path with
  | nil => exact ⟨rfl, (Option.some.inj h).symm⟩
  | cons key path => cases h

/-- Whether a value is a mapping, and without a tag. -/
def IsMapping (v : Value) : Prop := ∃ es, v = .map es

theorem isMapping_of_at?_record {es : List (String × Value)} {x : Value}
    (h : (record es).at? [] = some x) : x.IsMapping := ⟨_, (Option.some.inj h).symm⟩

end Value

theorem get?_write_keyed {α : Type} [Schema α] (m : Keyed α) (key : String) :
    (write m).get? key = (m.get? key).map write := by
  rw [← Keyed.get?_map]
  exact Value.get?_record _ key

/-! ### Fields of a node -/

namespace Fields

variable {α : Type} [Schema α] {n : Yaml.Node} {v x : Value} {names : List String}
  {fs : Fields Yaml.Node} {name : String}

theorem read_of_required (hv : n.toValue true = .ok v) (hfs : ofReadable names n = .ok fs)
    (hname : name ∈ names) {a : α} (h : fs.required name = .ok a) (hx : v.get? name = some x) :
    ∃ c : Yaml.Node, c.toValue true = .ok x ∧ read c = .ok a := by
  obtain ⟨c, hfind, hc⟩ := exists_find? hv hfs hname hx
  unfold required at h
  rw [hfind] at h
  exact ⟨c, hc, h⟩

theorem read_of_getD (hv : n.toValue true = .ok v) (hfs : ofReadable names n = .ok fs)
    (hname : name ∈ names) {a fallback : α} (h : fs.getD name fallback = .ok a)
    (hx : v.get? name = some x) : ∃ c : Yaml.Node, c.toValue true = .ok x ∧ read c = .ok a := by
  obtain ⟨c, hfind, hc⟩ := exists_find? hv hfs hname hx
  unfold getD at h
  rw [hfind] at h
  exact ⟨c, hc, h⟩

/-- A field that may be absent is read when it is not null. -/
theorem read_of_optional (hv : n.toValue true = .ok v) (hfs : ofReadable names n = .ok fs)
    (hname : name ∈ names) {a : Option α} (h : fs.optional name = .ok a)
    (hx : v.get? name = some x) (hpresent : ∀ c : Yaml.Node, c.toValue true = .ok x →
      Yaml.Node.present c = .ok (some c)) :
    ∃ (c : Yaml.Node) (b : α), c.toValue true = .ok x ∧ read c = .ok b ∧ a = some b := by
  obtain ⟨c, hfind, hc⟩ := exists_find? hv hfs hname hx
  unfold optional at h
  rw [hfind] at h
  -- whether the node counts as present is decided before it is read
  obtain ⟨y, hy, hrest⟩ := bind_eq_ok_iff.1 h
  obtain rfl := Except.ok.inj ((hpresent c hc).symm.trans hy)
  obtain ⟨b, hb, ha⟩ := bind_eq_ok_iff.1 hrest
  exact ⟨c, b, hc, hb, (Except.ok.inj ha).symm⟩

theorem eq_of_required_text (hv : n.toValue true = .ok v) (hfs : ofReadable names n = .ok fs)
    (hname : name ∈ names) {s text : String} (h : fs.required name = .ok s)
    (hx : v.get? name = some (.string text)) : s = text := by
  obtain ⟨c, hc, hs⟩ := read_of_required hv hfs hname h hx
  exact Except.ok.inj (hs.symm.trans (Yaml.Node.readText_of_toValue hc).1)

theorem eq_of_optional_text (hv : n.toValue true = .ok v) (hfs : ofReadable names n = .ok fs)
    (hname : name ∈ names) {s : Option String} {text : String} (h : fs.optional name = .ok s)
    (hx : v.get? name = some (.string text)) : s = some text := by
  obtain ⟨c, b, hc, hb, rfl⟩ := read_of_optional hv hfs hname h hx fun c hc =>
    (Yaml.Node.readText_of_toValue hc).2
  rw [Except.ok.inj (hb.symm.trans (Yaml.Node.readText_of_toValue hc).1)]

/-- What stands under a key of a mapping from texts is read as it is. -/
theorem get?_of_getD (hv : n.toValue true = .ok v) (hfs : ofReadable names n = .ok fs)
    (hname : name ∈ names) {m : Keyed String} (h : fs.getD name ∅ = .ok m)
    (hx : v.get? name = some x) (hdistinct : v.hasDistinctKeys = true) (hkeys : x.TextKeyed)
    {key s : String} (hs : x.get? key = some (.string s)) : m.get? key = some s := by
  obtain ⟨c, hc, hm⟩ := read_of_getD hv hfs hname h hx
  obtain ⟨es, hes, hentries⟩ := bind_eq_ok_iff.1 hm
  have hdistinct' := Value.hasDistinctKeys_of_get? hdistinct hx
  -- the keys are texts and distinct, so the entries of the value can be looked up by name
  have htexts := Yaml.Node.textEntries_of_entries hc hes hdistinct' hkeys
  cases hlookup : es.lookup key with
  | none =>
    rw [htexts.absent hlookup] at hs
    cases hs
  | some y =>
    obtain ⟨z, hz, hget⟩ := htexts.found hlookup
    obtain rfl := Option.some.inj (hget.symm.trans hs)
    obtain ⟨a, ha, hm⟩ := get?_readEntries htexts.nodup hentries hlookup
    have htext : read y = .ok s := (Yaml.Node.readText_of_toValue hz).1
    rw [hm, Except.ok.inj (ha.symm.trans htext)]

/-- A mapping from texts is written as it is, unless it is empty. -/
theorem at?_mapping (hv : n.toValue true = .ok v) (hfs : ofReadable names n = .ok fs)
    (hname : name ∈ names) {m : Keyed String} (h : fs.getD name ∅ = .ok m)
    (hdistinct : v.hasDistinctKeys = true) (hkeys : ∀ x, v.get? name = some x → x.TextKeyed)
    {key text : String} (hx : v.at? [name, key] = some (.string text)) {w : Value}
    (hw : w.get? name = if m.isEmpty then none else some (write m)) :
    w.at? [name, key] = some (.string text) := by
  obtain ⟨x, hx, hs⟩ := Option.bind_eq_some_iff.1 hx
  rw [Value.at?_singleton] at hs
  have hget := get?_of_getD hv hfs hname h hx hdistinct (hkeys x hx) hs
  -- a mapping with an entry is not left out
  have hkept : m.isEmpty = false := Keyed.isEmpty_eq_false_iff.2 ⟨key, text, hget⟩
  rw [Value.at?_cons, hw, hkept, if_neg Bool.false_ne_true, Option.bind_some,
    Value.at?_singleton, get?_write_keyed, hget]
  rfl

end Fields

/-! ### Environments -/

/-- The paths of the texts of metadata, with a key of a label or an annotation. -/
def Metadata.textFields (key : String) : List (List String) :=
  [["name"], ["namespace"], ["labels", key], ["annotations", key]]

namespace Environment

/-- The paths of an environment's texts, apart from the settings of the team, with a key of a label
or an annotation. -/
def textFields (key : String) : List (List String) :=
  [["apiVersion"], ["kind"]] ++ (Metadata.textFields key).map ("metadata" :: ·) ++
    [["spec", "source", "url"]]

/-- The paths on the way to a text or to the settings of the team. -/
def sections : List (List String) :=
  [[], ["metadata"], ["metadata", "labels"], ["metadata", "annotations"], ["spec"],
    ["spec", "source"]]

/-- The settings of the team with a default scheduler, as they are written. -/
def annotatedSettings (e : Environment) (scheduler : String) : Value :=
  .record (("defaultScheduler", write (Reference.toScheduler scheduler)) ::
    (e.spec.teamSettings.getD {}).extra.entries)

theorem write_withDefaultScheduler (e : Environment) (scheduler : String) :
    write (withDefaultScheduler e scheduler) = .record [
      ("apiVersion", .string e.apiVersion), ("kind", .string e.kind),
      ("metadata", write e.metadata),
      ("spec", .record [("source", write e.spec.source),
        ("teamSettings", annotatedSettings e scheduler)])] := rfl

/-- A path behind `metadata` is one into the metadata. -/
theorem at?_metadata (e : Environment) (scheduler : String) (path : List String) :
    (write (withDefaultScheduler e scheduler)).at? ("metadata" :: path) =
      (write e.metadata).at? path := by
  rw [write_withDefaultScheduler, Value.at?_cons, Value.get?_record]
  rfl

theorem at?_spec (e : Environment) (scheduler : String) (path : List String) :
    (write (withDefaultScheduler e scheduler)).at? ("spec" :: path) =
      (Value.record [("source", write e.spec.source),
        ("teamSettings", annotatedSettings e scheduler)]).at? path := by
  rw [write_withDefaultScheduler, Value.at?_cons, Value.get?_record]
  rfl

theorem at?_teamSettings (e : Environment) (scheduler : String) (path : List String) :
    (write (withDefaultScheduler e scheduler)).at? ("spec" :: "teamSettings" :: path) =
      (annotatedSettings e scheduler).at? path := by
  rw [at?_spec, Value.at?_cons, Value.get?_record]
  rfl

end Environment

namespace Metadata

theorem get?_write (m : Metadata) :
    (write m).get? "name" = some (.string m.name) ∧
    (write m).get? "namespace" = m.namespaceName.map .string ∧
    (write m).get? "labels" = (if m.labels.isEmpty then none else some (write m.labels)) ∧
    (write m).get? "annotations" =
      (if m.annotations.isEmpty then none else some (write m.annotations)) := by
  have hwrite : write m = .record (field "name" m.name ++ field? "namespace" m.namespaceName ++
      fieldUnless "labels" m.labels.isEmpty m.labels ++
      fieldUnless "annotations" m.annotations.isEmpty m.annotations) := rfl
  simp only [hwrite, Value.get?_record]
  unfold fieldUnless
  -- each of the three optional fields is there or not, in eight ways
  cases m.namespaceName <;> cases m.labels.isEmpty <;> cases m.annotations.isEmpty <;>
    exact ⟨rfl, rfl, rfl, rfl⟩

/-- The texts of metadata are written as they were read. -/
theorem at?_write_of_read {n : Yaml.Node} {v : Value} {m : Metadata} {text : String}
    {path : List String} (hv : n.toValue true = .ok v) (hm : read n = .ok m)
    (hdistinct : v.hasDistinctKeys = true)
    (hkeys : ∀ key ∈ ["labels", "annotations"], ∀ x, v.get? key = some x → x.TextKeyed)
    {key : String} (hpath : path ∈ textFields key) (hx : v.at? path = some (.string text)) :
    (write m).at? path = some (.string text) := by
  obtain ⟨fs, hfs, hrest⟩ := bind_eq_ok_iff.1 hm
  obtain ⟨name, hname, hrest⟩ := bind_eq_ok_iff.1 hrest
  obtain ⟨namespaceName, hnamespace, hrest⟩ := bind_eq_ok_iff.1 hrest
  obtain ⟨labels, hlabels, hrest⟩ := bind_eq_ok_iff.1 hrest
  obtain ⟨annotations, hannotations, hrest⟩ := bind_eq_ok_iff.1 hrest
  obtain rfl := Except.ok.inj hrest
  obtain ⟨hwname, hwnamespace, hwlabels, hwannotations⟩ :=
    get?_write { name, namespaceName, labels, annotations }
  simp only [textFields, List.mem_cons, List.not_mem_nil, or_false] at hpath
  -- two texts of the metadata itself, and two inside its mappings
  obtain rfl | rfl | rfl | rfl := hpath
  · rw [Value.at?_singleton] at hx ⊢
    rw [hwname, Fields.eq_of_required_text hv hfs (by decide) hname hx]
  · rw [Value.at?_singleton] at hx ⊢
    rw [hwnamespace, Fields.eq_of_optional_text hv hfs (by decide) hnamespace hx]
    rfl
  · exact Fields.at?_mapping hv hfs (by decide) hlabels hdistinct (hkeys _ (by decide)) hx hwlabels
  · exact Fields.at?_mapping hv hfs (by decide) hannotations hdistinct (hkeys _ (by decide)) hx
      hwannotations

end Metadata

namespace Environment

/-- The mappings of an environment that may have any keys. -/
def openMappings : List (List String) :=
  [["metadata", "labels"], ["metadata", "annotations"], ["spec", "teamSettings"]]

variable {n : Yaml.Node} {v : Value} {e : Environment}

/-! ### What is kept -/

/-- What is read of an environment: its fields from the entries of its value. -/
theorem exists_of_read (he : read n = .ok e) :
    ∃ fs, Fields.ofReadable ["apiVersion", "kind", "metadata", "spec"] n = .ok fs ∧
      fs.required "apiVersion" = .ok e.apiVersion ∧ fs.required "kind" = .ok e.kind ∧
      fs.required "metadata" = .ok e.metadata ∧ fs.required "spec" = .ok e.spec := by
  obtain ⟨fs, hfs, hrest⟩ := bind_eq_ok_iff.1 he
  obtain ⟨apiVersion, hversion, hrest⟩ := bind_eq_ok_iff.1 hrest
  obtain ⟨kind, hkind, hrest⟩ := bind_eq_ok_iff.1 hrest
  obtain ⟨metadata, hmetadata, hrest⟩ := bind_eq_ok_iff.1 hrest
  obtain ⟨spec, hspec, hrest⟩ := bind_eq_ok_iff.1 hrest
  obtain rfl := Except.ok.inj hrest
  exact ⟨fs, hfs, hversion, hkind, hmetadata, hspec⟩

/-- The URL of the source is read as it is. -/
theorem url_of_read {spec : EnvironmentSpec} {text : String} (hv : n.toValue true = .ok v)
    (hspec : read n = .ok spec) (hx : v.at? ["source", "url"] = some (.string text)) :
    spec.source.url = some text := by
  obtain ⟨fs, hfs, hrest⟩ := bind_eq_ok_iff.1 hspec
  obtain ⟨source, hsource, hrest⟩ := bind_eq_ok_iff.1 hrest
  obtain ⟨settings, -, hrest⟩ := bind_eq_ok_iff.1 hrest
  obtain rfl := Except.ok.inj hrest
  obtain ⟨x, hx, hurl⟩ := Option.bind_eq_some_iff.1 hx
  rw [Value.at?_singleton] at hurl
  -- the source is a record in the spec, so its URL is read in two steps
  obtain ⟨c, hc, hread⟩ := Fields.read_of_getD hv hfs (by decide) hsource hx
  obtain ⟨fs', hfs', hrest⟩ := bind_eq_ok_iff.1 hread
  obtain ⟨url, hfield, hrest⟩ := bind_eq_ok_iff.1 hrest
  obtain rfl := Except.ok.inj hrest
  exact Fields.eq_of_optional_text hc hfs' (by decide) hfield hurl

/-- The settings of the team are kept with all that stands in them. -/
theorem get?_extra_of_read {spec : EnvironmentSpec} {x y : Value} {key : String}
    (hv : n.toValue true = .ok v) (hspec : read n = .ok spec)
    (hdistinct : v.hasDistinctKeys = true) (hx : v.get? "teamSettings" = some x)
    (hkeys : x.TextKeyed) (hkey : key ≠ "defaultScheduler") (hy : x.get? key = some y) :
    (spec.teamSettings.getD {}).extra.get? key = some y := by
  obtain ⟨fs, hfs, hrest⟩ := bind_eq_ok_iff.1 hspec
  obtain ⟨source, -, hrest⟩ := bind_eq_ok_iff.1 hrest
  obtain ⟨settings, hsettings, hrest⟩ := bind_eq_ok_iff.1 hrest
  obtain rfl := Except.ok.inj hrest
  -- a node with an entry in its value is no scalar, and so not null
  have hpresent : ∀ c : Yaml.Node, c.toValue true = .ok x →
      Yaml.Node.present c = .ok (some c) := by
    intro c hc
    cases c with
    | scalar tag s =>
      have hmem := Value.mem_entries_of_get? hy
      rw [(Yaml.Node.spelled_toValue hc).entries] at hmem
      cases hmem
    | seq tag items => rfl
    | map tag entries => rfl
    | unreadable => cases hc
  obtain ⟨c, settings, hc, hread, rfl⟩ :=
    Fields.read_of_optional hv hfs (by decide) hsettings hx hpresent
  obtain ⟨fs', hfs', hrest⟩ := bind_eq_ok_iff.1 hread
  obtain ⟨scheduler, -, hrest⟩ := bind_eq_ok_iff.1 hrest
  obtain ⟨extra, hextra, hrest⟩ := bind_eq_ok_iff.1 hrest
  obtain rfl := Except.ok.inj hrest
  have htexts := Yaml.Node.textEntries_of_entries hc (Fields.entries_of_ofReadable hfs')
    (Value.hasDistinctKeys_of_get? hdistinct hx) hkeys
  have hname : key ∉ TeamSettings.fieldNames := fun hmem => hkey (List.mem_singleton.1 hmem)
  exact (Fields.get?_extra htexts hextra hname).trans hy

/-- The texts of an environment are kept. -/
theorem at?_textField (hv : n.toValue true = .ok v) (he : read n = .ok e)
    (hdistinct : v.hasDistinctKeys = true)
    (hkeys : ∀ path ∈ openMappings, ∀ x, v.at? path = some x → x.TextKeyed) (scheduler : String)
    {key text : String} {path : List String} (hpath : path ∈ textFields key)
    (hx : v.at? path = some (.string text)) :
    (write (withDefaultScheduler e scheduler)).at? path = some (.string text) := by
  obtain ⟨fs, hfs, hversion, hkind, hmetadata, hspec⟩ := exists_of_read he
  simp only [textFields, List.mem_append, List.mem_cons, List.mem_map, List.not_mem_nil, or_false]
    at hpath
  -- a path leads to a field of the environment, into the metadata, or to the URL
  rcases hpath with ((rfl | rfl) | ⟨below, hbelow, rfl⟩) | rfl
  · rw [Value.at?_singleton] at hx ⊢
    rw [← Fields.eq_of_required_text hv hfs (by decide) hversion hx, write_withDefaultScheduler]
    exact Value.get?_record _ _
  · rw [Value.at?_singleton] at hx ⊢
    rw [← Fields.eq_of_required_text hv hfs (by decide) hkind hx, write_withDefaultScheduler]
    exact Value.get?_record _ _
  · -- the labels and annotations are open mappings seen from the metadata
    obtain ⟨x, hx, htext⟩ := Option.bind_eq_some_iff.1 hx
    obtain ⟨c, hc, hread⟩ := Fields.read_of_required hv hfs (by decide) hmetadata hx
    have htexts : ∀ key ∈ ["labels", "annotations"], ∀ y, x.get? key = some y → y.TextKeyed := by
      intro key hkey y hy
      refine hkeys ["metadata", key] ?_ y ?_
      · revert hkey
        simp +contextual [openMappings]
      · rw [Value.at?_cons, hx, Option.bind_some, Value.at?_singleton, hy]
    have hwritten := Metadata.at?_write_of_read hc hread
      (Value.hasDistinctKeys_of_get? hdistinct hx) htexts hbelow htext
    rw [at?_metadata]
    exact hwritten
  · obtain ⟨x, hx, htext⟩ := Option.bind_eq_some_iff.1 hx
    obtain ⟨c, hc, hread⟩ := Fields.read_of_required hv hfs (by decide) hspec hx
    have hurl := url_of_read hc hread htext
    rw [at?_spec, Value.at?_cons, Value.get?_record]
    change (Value.record (field? "url" e.spec.source.url)).at? ["url"] = _
    rw [hurl, Value.at?_singleton]
    exact Value.get?_record _ _

/-- The settings of the team are kept, all but the default scheduler. -/
theorem at?_setting (hv : n.toValue true = .ok v) (he : read n = .ok e)
    (hdistinct : v.hasDistinctKeys = true)
    (hkeys : ∀ path ∈ openMappings, ∀ x, v.at? path = some x → x.TextKeyed) (scheduler : String)
    {key : String} {below : List String} {x : Value} (hkey : key ≠ "defaultScheduler")
    (hx : v.at? ("spec" :: "teamSettings" :: key :: below) = some x) :
    (write (withDefaultScheduler e scheduler)).at? ("spec" :: "teamSettings" :: key :: below) =
      some x := by
  obtain ⟨fs, hfs, -, -, -, hspec⟩ := exists_of_read he
  -- the path passes the spec and the settings before it comes to the key
  obtain ⟨spec, hspec', hx⟩ := Option.bind_eq_some_iff.1 hx
  obtain ⟨settings, hsettings, hx⟩ := Option.bind_eq_some_iff.1 hx
  obtain ⟨y, hy, hx⟩ := Option.bind_eq_some_iff.1 hx
  obtain ⟨c, hc, hread⟩ := Fields.read_of_required hv hfs (by decide) hspec hspec'
  have htexts : settings.TextKeyed := by
    refine hkeys ["spec", "teamSettings"] (by simp [openMappings]) settings ?_
    rw [Value.at?_cons, hspec', Option.bind_some, Value.at?_singleton, hsettings]
  have hextra := get?_extra_of_read hc hread (Value.hasDistinctKeys_of_get? hdistinct hspec')
    hsettings htexts hkey hy
  -- the default scheduler is written in front, under another key
  have hwritten : (annotatedSettings e scheduler).get? key = some y := by
    unfold annotatedSettings
    rw [Value.get?_record, List.lookup_cons, beq_false_of_ne hkey]
    exact hextra
  rw [at?_teamSettings, Value.at?_cons, hwritten]
  exact hx

end Environment

/-! ### What is left -/

theorem name_eq_of_mem_field? {α : Type} [Schema α] {name key : String} {a : Option α} {y : Value}
    (h : (key, y) ∈ field? name a) : key = name ∧ ∃ b : α, y = write b := by
  cases a with
  | none => cases h
  | some b =>
    obtain ⟨hkey, hy⟩ := Prod.mk.inj (List.mem_singleton.1 h)
    exact ⟨hkey, b, hy⟩

theorem eq_of_mem_fieldUnless {α : Type} [Schema α] {name key : String} {omitted : Bool} {a : α}
    {y : Value} (h : (key, y) ∈ fieldUnless name omitted a) : key = name ∧ y = write a := by
  unfold fieldUnless at h
  split at h
  · cases h
  · exact Prod.mk.inj (List.mem_singleton.1 h)

/-- A path into a mapping of texts has one key at most. -/
theorem at?_texts {m : Keyed String} {path : List String} {x : Value}
    (h : (write m).at? path = some x) :
    (path = [] ∧ x.IsMapping) ∨ ∃ key text, path = [key] ∧ x = .string text := by
  cases path with
  | nil => exact Or.inl ⟨rfl, Value.isMapping_of_at?_record h⟩
  | cons key path =>
    obtain ⟨y, hy, hx⟩ := Value.exists_mem_of_at?_record h
    obtain ⟨entry, -, heq⟩ := List.mem_map.1 hy
    obtain ⟨-, rfl⟩ := Prod.mk.inj heq
    obtain ⟨rfl, rfl⟩ := Value.eq_of_at?_string hx
    exact Or.inr ⟨key, _, rfl, rfl⟩

theorem EnvironmentSource.place_of_at? (s : EnvironmentSource) {path : List String} {x : Value}
    (h : (write s).at? path = some x) :
    (path = [] ∧ x.IsMapping) ∨ (path = ["url"] ∧ ∃ text, x = .string text) := by
  cases path with
  | nil => exact Or.inl ⟨rfl, Value.isMapping_of_at?_record h⟩
  | cons name path =>
    obtain ⟨y, hy, hx⟩ := Value.exists_mem_of_at?_record h
    obtain ⟨rfl, text, rfl⟩ := name_eq_of_mem_field? hy
    obtain ⟨rfl, rfl⟩ := Value.eq_of_at?_string hx
    exact Or.inr ⟨rfl, text, rfl⟩

theorem Metadata.place_of_at? (m : Metadata) {path : List String} {x : Value}
    (h : (write m).at? path = some x) :
    (path ∈ [[], ["labels"], ["annotations"]] ∧ x.IsMapping) ∨
      ∃ key text, path ∈ textFields key ∧ x = .string text := by
  cases path with
  | nil => exact Or.inl ⟨List.mem_cons_self, Value.isMapping_of_at?_record h⟩
  | cons name path =>
    obtain ⟨y, hy, hx⟩ := Value.exists_mem_of_at?_record h
    -- the four fields of metadata: two texts and two mappings of texts
    simp only [List.mem_append] at hy
    rcases hy with ((hy | hy) | hy) | hy
    · obtain ⟨rfl, rfl⟩ := Prod.mk.inj (List.mem_singleton.1 hy)
      obtain ⟨rfl, rfl⟩ := Value.eq_of_at?_string hx
      exact Or.inr ⟨"", _, by simp [textFields], rfl⟩
    · obtain ⟨rfl, text, rfl⟩ := name_eq_of_mem_field? hy
      obtain ⟨rfl, rfl⟩ := Value.eq_of_at?_string hx
      exact Or.inr ⟨"", text, by simp [textFields], rfl⟩
    · obtain ⟨rfl, rfl⟩ := eq_of_mem_fieldUnless hy
      rcases at?_texts hx with ⟨rfl, hmap⟩ | ⟨key, text, rfl, rfl⟩
      · exact Or.inl ⟨by simp, hmap⟩
      · exact Or.inr ⟨key, text, by simp [textFields], rfl⟩
    · obtain ⟨rfl, rfl⟩ := eq_of_mem_fieldUnless hy
      rcases at?_texts hx with ⟨rfl, hmap⟩ | ⟨key, text, rfl, rfl⟩
      · exact Or.inl ⟨by simp, hmap⟩
      · exact Or.inr ⟨key, text, by simp [textFields], rfl⟩

namespace Environment

/-- Nothing stands in the file but the texts, the settings of the team and the mappings around
them. -/
theorem place_of_at? (e : Environment) (scheduler : String) {path : List String} {x : Value}
    (h : (write (withDefaultScheduler e scheduler)).at? path = some x) :
    (path ∈ sections ∧ x.IsMapping) ∨
      (∃ key text, path ∈ textFields key ∧ x = .string text) ∨
      ["spec", "teamSettings"] <+: path := by
  rw [write_withDefaultScheduler] at h
  cases path with
  | nil => exact Or.inl ⟨List.mem_cons_self, Value.isMapping_of_at?_record h⟩
  | cons name path =>
    obtain ⟨y, hy, hx⟩ := Value.exists_mem_of_at?_record h
    -- four fields are written, and below each of them it is known what can stand
    simp only [List.mem_cons, Prod.mk.injEq, List.not_mem_nil, or_false] at hy
    rcases hy with ⟨rfl, rfl⟩ | ⟨rfl, rfl⟩ | ⟨rfl, rfl⟩ | ⟨rfl, rfl⟩
    · obtain ⟨rfl, rfl⟩ := Value.eq_of_at?_string hx
      exact Or.inr (Or.inl ⟨"", _, by simp [textFields], rfl⟩)
    · obtain ⟨rfl, rfl⟩ := Value.eq_of_at?_string hx
      exact Or.inr (Or.inl ⟨"", _, by simp [textFields], rfl⟩)
    · -- what stands in the metadata stands below its key
      rcases e.metadata.place_of_at? hx with ⟨hsection, hmap⟩ | ⟨key, text, htext, rfl⟩
      · refine Or.inl ⟨?_, hmap⟩
        revert hsection
        simp +contextual [sections]
      · refine Or.inr (Or.inl ⟨key, text, ?_, rfl⟩)
        exact List.mem_append_left _ (List.mem_append_right _ (List.mem_map_of_mem htext))
    · cases path with
      | nil => exact Or.inl ⟨by simp [sections], Value.isMapping_of_at?_record hx⟩
      | cons name path =>
        obtain ⟨y, hy, hx⟩ := Value.exists_mem_of_at?_record hx
        simp only [List.mem_cons, Prod.mk.injEq, List.not_mem_nil, or_false] at hy
        rcases hy with ⟨rfl, rfl⟩ | ⟨rfl, rfl⟩
        · rcases e.spec.source.place_of_at? hx with ⟨rfl, hmap⟩ | ⟨rfl, text, rfl⟩
          · exact Or.inl ⟨by simp [sections], hmap⟩
          · exact Or.inr (Or.inl ⟨"", text, by simp [textFields], rfl⟩)
        · exact Or.inr (Or.inr (by simp))

/-- What becomes of the value of an environment when it is given a default scheduler. -/
structure Annotates (scheduler : String) (v w : Value) : Prop where
  defaultScheduler : w.at? ["spec", "teamSettings", "defaultScheduler"] =
    some (.record [("kind", .string "Scheduler"), ("name", .string scheduler)])
  settings : ∀ (key : String) (below : List String) (x : Value), key ≠ "defaultScheduler" →
    v.at? ("spec" :: "teamSettings" :: key :: below) = some x →
    w.at? ("spec" :: "teamSettings" :: key :: below) = some x
  leaves : ∀ (path : List String) (x : Value), ¬ ["spec", "teamSettings"] <+: path →
    ¬ x.IsMapping → v.at? path = some x →
    (w.at? path = some x ↔ ∃ key text, path ∈ textFields key ∧ x = .string text)
  nothingElse : ∀ (path : List String) (x : Value), w.at? path = some x →
    (path ∈ sections ∧ x.IsMapping) ∨
      (∃ key text, path ∈ textFields key ∧ x = .string text) ∨
      ["spec", "teamSettings"] <+: path

theorem annotates_withDefaultScheduler {n : Yaml.Node} {v : Value} {e : Environment}
    (hv : n.toValue true = .ok v) (he : read n = .ok e) (hdistinct : v.hasDistinctKeys = true)
    (hkeys : ∀ path ∈ openMappings, ∀ x, v.at? path = some x → x.TextKeyed) (scheduler : String) :
    Annotates scheduler v (write (withDefaultScheduler e scheduler)) where
  defaultScheduler := by
    rw [at?_teamSettings, Value.at?_singleton]
    exact Value.get?_record _ _
  settings _ _ _ hkey hx := at?_setting hv he hdistinct hkeys scheduler hkey hx
  leaves path x hpath hleaf hx := by
    constructor
    · -- what is in the file and no mapping is a text, since the settings are excepted
      intro hw
      rcases place_of_at? e scheduler hw with ⟨-, hmap⟩ | htext | hsettings
      · exact absurd hmap hleaf
      · exact htext
      · exact absurd hsettings hpath
    · rintro ⟨key, text, hfield, rfl⟩
      exact at?_textField hv he hdistinct hkeys scheduler hfield hx
  nothingElse _ _ h := place_of_at? e scheduler h

end Environment

end SchedulerPolicy
