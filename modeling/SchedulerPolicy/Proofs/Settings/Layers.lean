import SchedulerPolicy.Proofs.Schema.Environments
import SchedulerPolicy.Settings.Overlay

/-!
# Which layer has its way

Layers are values of JSON (`Value.IsJson`), and so is what they come down to (`IsJson.overlay`). A
layer says something about a path when it has a value there, or when something on the way is no
mapping, so that nothing can stand there (`Value.Overrides`). One layer on top of a value then
decides what it says something about, and leaves the rest alone (`at?_overlay_iff`). Of many layers
the last that says something about a path has its way (`at?_overlayAll_iff`), also where a mapping
gives way to a scalar and a later layer has a mapping there again.

All of it comes from the look-up of one key (`get?_overlayEntries`), which needs the keys of a layer
to be distinct: entries are put on top one by one, and a second one would go on top of the first.
-/

namespace SchedulerPolicy

namespace Value

/-- A value of JSON: nothing is tagged, and the keys of every mapping are distinct texts. -/
inductive IsJson : Value → Prop
  | null : IsJson .null
  | bool (b : Bool) : IsJson (.bool b)
  | int (n : Int) : IsJson (.int n)
  | float (x : Double) : IsJson (.float x)
  | string (s : String) : IsJson (.string s)
  | seq {items : List Value} (values : ∀ v ∈ items, IsJson v) : IsJson (.seq items)
  | map {es : List (Value × Value)} (texts : ∀ e ∈ es, ∃ s, e.1 = .string s)
      (nodup : (es.map Prod.fst).Nodup) (values : ∀ e ∈ es, IsJson e.2) : IsJson (.map es)

/-- Entries under distinct texts are a mapping of JSON. -/
theorem IsJson.record {es : List (String × Value)} (nodup : (es.map Prod.fst).Nodup)
    (values : ∀ e ∈ es, e.2.IsJson) : (Value.record es).IsJson := by
  refine .map ?texts ?nodup (List.forall_mem_map.2 values)
  case texts => exact List.forall_mem_map.2 fun e _ => ⟨e.1, rfl⟩
  case nodup =>
    rw [List.map_map]
    refine List.pairwise_map.2 ((List.pairwise_map.1 nodup).imp fun hne heq => hne ?_)
    exact Value.string.inj heq

/-- A layer says something about a path: it has a value there, or a value that is no mapping on the
way. -/
def Overrides (layer : Value) (path : List String) : Prop :=
  (∃ x, layer.at? path = some x) ∨
    ∃ before x, before <+: path ∧ before ≠ path ∧ layer.at? before = some x ∧ ¬x.IsMapping

end Value

/-! ### One entry -/

namespace Value

variable {es : List (Value × Value)} {k v : Value} {key other : String}

theorem beq_string_of_ne (h : key ≠ other) : (Value.string key == .string other) = false := by
  change (key == other) = false
  exact beq_false_of_ne h

/-- An entry is found under its own key. -/
theorem get?_cons_of_eq (h : key = other) :
    (Value.map ((.string key, v) :: es)).get? other = some v := by
  subst h
  have hkey : (Value.string key == .string key) = true := agrees_refl _
  unfold get? untag
  dsimp only
  rw [List.find?_cons]
  dsimp only
  rw [hkey]
  rfl

/-- An entry under another key is passed over. -/
theorem get?_cons_of_ne (h : (k == .string other) = false) :
    (Value.map ((k, v) :: es)).get? other = (Value.map es).get? other := by
  unfold get? untag
  dsimp only
  rw [List.find?_cons]
  dsimp only
  rw [h]

/-- Under distinct keys an entry is found. -/
theorem get?_of_mem (hnodup : (es.map Prod.fst).Nodup) {e : Value × Value} (he : e ∈ es)
    (hkey : e.1 = .string key) : (Value.map es).get? key = some e.2 := by
  induction es with
  | nil => cases he
  | cons first es ih =>
    rw [List.map_cons, List.nodup_cons] at hnodup
    rcases List.mem_cons.1 he with rfl | he
    · obtain ⟨k, v⟩ := e
      obtain rfl : k = .string key := hkey
      exact get?_cons_of_eq rfl
    · -- the first entry has another key, for the keys are distinct
      have hne : (first.1 == .string key) = false := by
        refine Bool.eq_false_iff.2 fun hfirst => hnodup.1 ?_
        rw [eq_string_of_beq hfirst, ← hkey]
        exact List.mem_map_of_mem he
      rw [← ih hnodup.2 he]
      exact get?_cons_of_ne hne

/-- Under a key that no entry has nothing is found. -/
theorem get?_of_notMem (h : .string key ∉ es.map Prod.fst) : (Value.map es).get? key = none := by
  cases hget : (Value.map es).get? key with
  | none => rfl
  | some x => exact absurd (List.mem_map_of_mem (mem_entries_of_get? hget)) h

end Value

open Value

section Entries

variable {es layer : List (Value × Value)} {key : String} {f : Option Value → Value} {x : Value}

/-- An entry that is altered is found, and the others are found as before. -/
theorem get?_alterEntry (es : List (Value × Value)) (key other : String)
    (f : Option Value → Value) :
    (Value.map (alterEntry (.string key) f es)).get? other =
      if other = key then some (f ((Value.map es).get? key)) else (Value.map es).get? other := by
  induction es with
  | nil =>
    unfold alterEntry
    split
    · next h => exact get?_cons_of_eq h.symm
    · next h => exact get?_cons_of_ne (beq_string_of_ne (Ne.symm h))
  | cons e es ih =>
    obtain ⟨k, v⟩ := e
    unfold alterEntry
    by_cases hk : (k == .string key) = true
    · -- this is the entry that is altered
      obtain rfl := eq_string_of_beq hk
      rw [if_pos hk, get?_cons_of_eq rfl]
      split
      · next h => exact get?_cons_of_eq h.symm
      · next h =>
        have hne := beq_string_of_ne (Ne.symm h)
        rw [get?_cons_of_ne hne, get?_cons_of_ne hne]
    · rw [if_neg hk, get?_cons_of_ne (Bool.eq_false_iff.2 hk)]
      -- the entry stays where it is, and it may be the one that is looked for
      by_cases hother : (k == .string other) = true
      · obtain rfl := eq_string_of_beq hother
        have hne : other ≠ key := by
          rintro rfl
          exact hk hother
        rw [get?_cons_of_eq rfl, get?_cons_of_eq rfl, if_neg hne]
      · have hskip := Bool.eq_false_iff.2 hother
        rw [get?_cons_of_ne hskip, get?_cons_of_ne hskip, ih]

/-- Where nothing is altered the entries stay as they are. -/
theorem alterEntry_eq_self (hx : (Value.map es).get? key = some x) (hf : f (some x) = x) :
    alterEntry (.string key) f es = es := by
  induction es with
  | nil => cases hx
  | cons e es ih =>
    obtain ⟨k, v⟩ := e
    unfold alterEntry
    by_cases hk : (k == .string key) = true
    · obtain rfl := eq_string_of_beq hk
      rw [get?_cons_of_eq rfl] at hx
      obtain rfl := Option.some.inj hx
      rw [if_pos hk, hf]
    · rw [get?_cons_of_ne (Bool.eq_false_iff.2 hk)] at hx
      rw [if_neg hk, ih hx]

theorem mem_alterEntry {k : Value} {e : Value × Value} (h : e ∈ alterEntry k f es) :
    e ∈ es ∨ e = (k, f none) ∨ ∃ e' ∈ es, e = (e'.1, f (some e'.2)) := by
  induction es with
  | nil => exact Or.inr (Or.inl (List.mem_singleton.1 h))
  | cons e' es ih =>
    unfold alterEntry at h
    split at h
    · rcases List.mem_cons.1 h with rfl | h
      · exact Or.inr (Or.inr ⟨e', List.mem_cons_self, rfl⟩)
      · exact Or.inl (List.mem_cons_of_mem _ h)
    · rcases List.mem_cons.1 h with rfl | h
      · exact Or.inl List.mem_cons_self
      · rcases ih h with h | h | ⟨e'', he'', h⟩
        · exact Or.inl (List.mem_cons_of_mem _ h)
        · exact Or.inr (Or.inl h)
        · exact Or.inr (Or.inr ⟨e'', List.mem_cons_of_mem _ he'', h⟩)

/-- A key is added at most, and only where it is missing. -/
theorem nodup_alterEntry (k : Value) (f : Option Value → Value) (h : (es.map Prod.fst).Nodup) :
    ((alterEntry k f es).map Prod.fst).Nodup := by
  -- the keys are those of before, with the new one behind them where it is missing
  have hkeys : (alterEntry k f es).map Prod.fst =
      es.map Prod.fst ++ if es.any (·.1 == k) then [] else [k] := by
    clear h
    induction es with
    | nil => rfl
    | cons e es ih =>
      unfold alterEntry
      rw [List.any_cons]
      cases hk : e.1 == k with
      | true => exact (List.append_nil _).symm
      | false => exact congrArg (e.1 :: ·) ih
  rw [hkeys]
  cases hany : es.any (·.1 == k) with
  | true => exact (List.append_nil _).symm ▸ h
  | false =>
    refine List.nodup_append.2 ⟨h, List.nodup_singleton k, ?_⟩
    intro k' hk' k'' hk''
    obtain ⟨e, he, rfl⟩ := List.mem_map.1 hk'
    obtain rfl := List.mem_singleton.1 hk''
    rintro rfl
    exact List.any_eq_false.1 hany e he (agrees_refl _)

/-! ### The entries of a layer -/

theorem overlayEntries_cons (es : List (Value × Value)) (key : String) (v : Value)
    (rest : List (Value × Value)) :
    overlayEntries es ((.string key, v) :: rest) =
      overlayEntries (alterEntry (.string key) (fun x => x.elim v (overlay · v)) es) rest := by
  rw [overlayEntries]
  congr 2
  funext x
  cases x <;> rfl

/-- **What a layer does under one key.** What the layer has there goes on top of what was there. -/
theorem get?_overlayEntries (htexts : ∀ e ∈ layer, ∃ s, e.1 = .string s)
    (hnodup : (layer.map Prod.fst).Nodup) (es : List (Value × Value)) (key : String) :
    (Value.map (overlayEntries es layer)).get? key =
      ((Value.map es).get? key).merge overlay ((Value.map layer).get? key) := by
  induction layer generalizing es with
  | nil =>
    change (Value.map es).get? key = ((Value.map es).get? key).merge overlay none
    cases (Value.map es).get? key <;> rfl
  | cons e rest ih =>
    obtain ⟨⟨s, hs⟩, hrest⟩ := List.forall_mem_cons.1 htexts
    obtain ⟨k, v⟩ := e
    obtain rfl : k = .string s := hs
    rw [List.map_cons, List.nodup_cons] at hnodup
    rw [overlayEntries_cons, ih hrest hnodup.2, get?_alterEntry]
    split
    · next h =>
      -- the entries that follow have other keys
      subst h
      rw [get?_of_notMem hnodup.1, get?_cons_of_eq rfl]
      cases (Value.map es).get? key <;> rfl
    · next h => rw [get?_cons_of_ne (beq_string_of_ne (Ne.symm h))]

/-- A layer whose entries change nothing one by one changes nothing. -/
theorem overlayEntries_eq_self
    (h : ∀ e ∈ layer, ∃ s x, e.1 = .string s ∧ (Value.map es).get? s = some x ∧ overlay x e.2 = x) :
    overlayEntries es layer = es := by
  induction layer with
  | nil => rfl
  | cons e rest ih =>
    obtain ⟨⟨s, x, hs, hx, hsame⟩, hrest⟩ := List.forall_mem_cons.1 h
    obtain ⟨k, v⟩ := e
    obtain rfl : k = .string s := hs
    rw [overlayEntries_cons, alterEntry_eq_self hx hsame, ih hrest]

end Entries

/-! ### One layer -/

section Layer

variable {base layer v : Value} {path : List String}

theorem overlay_of_not_isMapping (h : ¬layer.IsMapping) (base : Value) :
    overlay base layer = layer := by
  cases layer with
  | map es => exact absurd ⟨es, rfl⟩ h
  | _ => rfl

theorem overlay_map_of_not_isMapping (h : ¬base.IsMapping) (es : List (Value × Value)) :
    overlay base (.map es) = .map es := by
  cases base with
  | map entries => exact absurd ⟨entries, rfl⟩ h
  | _ => rfl

theorem overlay_map_map (es layer : List (Value × Value)) :
    overlay (.map es) (.map layer) = .map (overlayEntries es layer) := rfl

theorem overlay_null (layer : Value) : overlay .null layer = layer := by
  cases layer <;> rfl

/-- A mapping stays one, with the keys of the layer added. -/
theorem isJson_overlayEntries {es layer : List (Value × Value)} (hes : (Value.map es).IsJson)
    (htexts : ∀ e ∈ layer, ∃ s, e.1 = .string s) (hvalues : ∀ e ∈ layer, e.2.IsJson)
    (hover : ∀ e ∈ layer, ∀ b : Value, b.IsJson → (overlay b e.2).IsJson) :
    (Value.map (overlayEntries es layer)).IsJson := by
  induction layer generalizing es with
  | nil => exact hes
  | cons e rest ih =>
    obtain ⟨⟨s, hs⟩, hrest⟩ := List.forall_mem_cons.1 htexts
    obtain ⟨hvalue, hvalues'⟩ := List.forall_mem_cons.1 hvalues
    obtain ⟨hfirst, hover'⟩ := List.forall_mem_cons.1 hover
    obtain ⟨k, v⟩ := e
    obtain rfl : k = .string s := hs
    rw [overlayEntries_cons]
    refine ih ?_ hrest hvalues' hover'
    cases hes with
    | map texts nodup values =>
      refine .map ?texts (nodup_alterEntry _ _ nodup) ?values
      case texts =>
        intro e he
        -- an entry stayed, was added or was altered
        rcases mem_alterEntry he with he | rfl | ⟨e', he', rfl⟩
        · exact texts e he
        · exact ⟨s, rfl⟩
        · exact texts e' he'
      case values =>
        intro e he
        rcases mem_alterEntry he with he | rfl | ⟨e', he', rfl⟩
        · exact values e he
        · exact hvalue
        · exact hfirst _ (values e' he')

/-- JSON on top of JSON is JSON. -/
theorem Value.IsJson.overlay (hbase : base.IsJson) (hlayer : layer.IsJson) :
    (overlay base layer).IsJson := by
  induction hlayer generalizing base with
  | @map es texts nodup values ih =>
    by_cases hmapping : base.IsMapping
    · -- below a mapping the entries are joined, below anything else the layer replaces it
      obtain ⟨entries, rfl⟩ := hmapping
      rw [overlay_map_map]
      exact isJson_overlayEntries hbase texts values fun e he b hb => ih e he hb
    · rw [overlay_map_of_not_isMapping hmapping]
      exact .map texts nodup values
  | null => exact .null
  | bool b => exact .bool b
  | int n => exact .int n
  | float x => exact .float x
  | string s => exact .string s
  | seq values => exact .seq values

theorem Value.IsJson.get? {v x : Value} {key : String} (h : v.IsJson) (hx : v.get? key = some x) :
    x.IsJson := by
  cases h with
  | map _ _ values => exact values _ (mem_entries_of_get? hx)
  | _ => cases hx

/-- Only a mapping has something under a key. -/
theorem Value.IsJson.at?_cons_eq_none {v : Value} (h : v.IsJson) (hv : ¬v.IsMapping) (key : String)
    (path : List String) : v.at? (key :: path) = none := by
  cases h with
  | map => exact absurd ⟨_, rfl⟩ hv
  | _ => rfl

/-- Every layer says something about the whole. -/
theorem overrides_nil (layer : Value) : layer.Overrides [] := Or.inl ⟨layer, rfl⟩

theorem overrides_cons_of_not_isMapping (h : ¬layer.IsMapping) (key : String)
    (path : List String) : layer.Overrides (key :: path) :=
  Or.inr ⟨[], layer, List.nil_prefix, (List.cons_ne_nil _ _).symm, rfl, h⟩

/-- What a mapping says about a path is what its entry says about the rest of it. -/
theorem overrides_cons_iff {es : List (Value × Value)} {key : String} :
    (Value.map es).Overrides (key :: path) ↔
      ∃ x, (Value.map es).get? key = some x ∧ x.Overrides path := by
  constructor
  · rintro (⟨y, hy⟩ | ⟨before, y, hprefix, hne, hy, hscalar⟩)
    · obtain ⟨x, hx, hy⟩ := Option.bind_eq_some_iff.1 hy
      exact ⟨x, hx, Or.inl ⟨y, hy⟩⟩
    · -- what is no mapping lies behind the first key, for here is a mapping
      cases before with
      | nil => exact absurd ⟨es, (Option.some.inj hy).symm⟩ hscalar
      | cons key' before =>
        obtain ⟨rfl, hrest⟩ := List.cons_prefix_cons.1 hprefix
        obtain ⟨x, hx, hy⟩ := Option.bind_eq_some_iff.1 hy
        exact ⟨x, hx, Or.inr ⟨before, y, hrest, fun h => hne (h ▸ rfl), hy, hscalar⟩⟩
  · rintro ⟨x, hx, ⟨y, hy⟩ | ⟨before, y, hprefix, hne, hy, hscalar⟩⟩
    · exact Or.inl ⟨y, Option.bind_eq_some_iff.2 ⟨x, hx, hy⟩⟩
    · exact Or.inr ⟨key :: before, y, List.cons_prefix_cons.2 ⟨rfl, hprefix⟩,
        fun h => hne (List.cons.inj h).2, Option.bind_eq_some_iff.2 ⟨x, hx, hy⟩, hscalar⟩

/-- **One layer.** What stands at a path, if it is no mapping, is what the layer has there, or what
was there before if the layer says nothing about the path. -/
theorem at?_overlay_iff (hbase : base.IsJson) (hlayer : layer.IsJson) (hv : ¬v.IsMapping) :
    (overlay base layer).at? path = some v ↔
      layer.at? path = some v ∨ base.at? path = some v ∧ ¬layer.Overrides path := by
  induction path generalizing base layer with
  | nil =>
    -- nothing is left of the base unless both are mappings, and then the whole is one
    have hsame : (overlay base layer).at? [] = some v ↔ layer.at? [] = some v := by
      by_cases hmapping : layer.IsMapping
      · obtain ⟨es, rfl⟩ := hmapping
        have hleft : ∃ es', overlay base (.map es) = .map es' := by
          by_cases hbase' : base.IsMapping
          · obtain ⟨entries, rfl⟩ := hbase'
            exact ⟨_, rfl⟩
          · exact ⟨es, overlay_map_of_not_isMapping hbase' es⟩
        obtain ⟨es', hes'⟩ := hleft
        constructor
        · intro h
          exact absurd ⟨es', (Option.some.inj h).symm.trans hes'⟩ hv
        · intro h
          exact absurd ⟨es, (Option.some.inj h).symm⟩ hv
      · rw [overlay_of_not_isMapping hmapping]
    rw [hsame]
    exact ⟨Or.inl, fun h => h.resolve_right fun hrest => hrest.2 (overrides_nil layer)⟩
  | cons key path ih =>
    by_cases hmapping : layer.IsMapping
    · obtain ⟨es, rfl⟩ := hmapping
      by_cases hbase' : base.IsMapping
      · -- two mappings are joined key by key
        obtain ⟨entries, rfl⟩ := hbase'
        have hget : (overlay (.map entries) (.map es)).get? key =
            ((Value.map entries).get? key).merge overlay ((Value.map es).get? key) := by
          cases hlayer with
          | map texts nodup _ => exact get?_overlayEntries texts nodup entries key
        rw [at?_cons, hget, at?_cons, at?_cons, overrides_cons_iff]
        cases hnew : (Value.map es).get? key with
        | none =>
          cases (Value.map entries).get? key <;> simp [Option.merge]
        | some x =>
          cases hold : (Value.map entries).get? key with
          | none => simp [Option.merge]
          | some b =>
            simpa [Option.merge] using ih (hbase.get? hold) (hlayer.get? hnew)
      · rw [overlay_map_of_not_isMapping hbase', hbase.at?_cons_eq_none hbase']
        exact ⟨Or.inl, fun h => h.resolve_right fun hrest => nomatch hrest.1⟩
    · rw [overlay_of_not_isMapping hmapping]
      exact ⟨Or.inl, fun h => h.resolve_right fun hrest =>
        hrest.2 (overrides_cons_of_not_isMapping hmapping key path)⟩

/-- A layer on top of itself changes nothing, whatever is below. -/
theorem overlay_overlay_self (hlayer : layer.IsJson) (base : Value) :
    overlay (overlay base layer) layer = overlay base layer := by
  induction hlayer generalizing base with
  | @map es texts nodup values ih =>
    -- a value on top of nothing is the value, so it may go on top of itself
    have hself : ∀ e ∈ es, overlay e.2 e.2 = e.2 := by
      intro e he
      have h := ih e he .null
      rwa [overlay_null] at h
    by_cases hmapping : base.IsMapping
    · obtain ⟨entries, rfl⟩ := hmapping
      rw [overlay_map_map, overlay_map_map, overlayEntries_eq_self]
      intro e he
      obtain ⟨s, hs⟩ := texts e he
      have hget := get?_overlayEntries texts nodup entries s
      rw [get?_of_mem nodup he hs] at hget
      -- what is found after the first time is the entry, alone or on top of an older one
      cases hold : (Value.map entries).get? s with
      | none =>
        rw [hold] at hget
        exact ⟨s, e.2, hs, hget, hself e he⟩
      | some b =>
        rw [hold] at hget
        exact ⟨s, _, hs, hget, ih e he b⟩
    · rw [overlay_map_of_not_isMapping hmapping, overlay_map_map, overlayEntries_eq_self]
      intro e he
      obtain ⟨s, hs⟩ := texts e he
      exact ⟨s, e.2, hs, get?_of_mem nodup he hs, hself e he⟩
  | _ => rfl

end Layer

/-! ### All layers -/

section Layers

variable {layers : List Value} {base v : Value} {path : List String}

/-- A value stands at a path in some layer, and no later layer says anything about the path. -/
def Prevails (layers : List Value) (path : List String) (v : Value) : Prop :=
  ∃ before layer after, layers = before ++ layer :: after ∧ layer.at? path = some v ∧
    ∀ later ∈ after, ¬later.Overrides path

theorem prevails_cons_iff {layer : Value} :
    Prevails (layer :: layers) path v ↔
      (layer.at? path = some v ∧ ∀ later ∈ layers, ¬later.Overrides path) ∨
        Prevails layers path v := by
  constructor
  · rintro ⟨before, layer', after, hsplit, hv, hlater⟩
    cases before with
    | nil =>
      obtain ⟨rfl, rfl⟩ := List.cons.inj hsplit
      exact Or.inl ⟨hv, hlater⟩
    | cons first before =>
      obtain ⟨rfl, rfl⟩ := List.cons.inj hsplit
      exact Or.inr ⟨before, layer', after, rfl, hv, hlater⟩
  · rintro (⟨hv, hlater⟩ | ⟨before, layer', after, rfl, hv, hlater⟩)
    · exact ⟨[], layer, layers, rfl, hv, hlater⟩
    · exact ⟨layer :: before, layer', after, rfl, hv, hlater⟩

theorem not_prevails_nil : ¬Prevails [] path v := by
  rintro ⟨before, layer, after, hsplit, -⟩
  cases before <;> cases hsplit

/-- Layers on top of a value: one of them prevails, or none says anything. -/
theorem at?_foldl_overlay_iff (hbase : base.IsJson) (hlayers : ∀ layer ∈ layers, layer.IsJson)
    (hv : ¬v.IsMapping) :
    (layers.foldl overlay base).at? path = some v ↔
      Prevails layers path v ∨
        base.at? path = some v ∧ ∀ layer ∈ layers, ¬layer.Overrides path := by
  induction layers generalizing base with
  | nil =>
    rw [List.foldl_nil, or_iff_right not_prevails_nil, and_iff_left (List.forall_mem_nil _)]
  | cons layer layers ih =>
    obtain ⟨hlayer, hlayers⟩ := List.forall_mem_cons.1 hlayers
    -- the first layer goes on top of the base, the others on top of both
    rw [List.foldl_cons, ih (hbase.overlay hlayer) hlayers, at?_overlay_iff hbase hlayer hv,
      prevails_cons_iff, List.forall_mem_cons]
    tauto

/-- **Which layer has its way.** Of some layers of JSON, what stands at a path in the end, if it is
no mapping, is what one layer has there about whose path no later one says anything. And a layer
that comes twice in a row comes to the same as once. -/
theorem at?_overlayAll_iff (hne : layers ≠ []) (hjson : ∀ layer ∈ layers, layer.IsJson) :
    (∀ path v, ¬v.IsMapping →
      ((overlayAll layers).at? path = some v ↔ Prevails layers path v)) ∧
    ∀ before layer after, layers = before ++ layer :: after →
      overlayAll (before ++ layer :: layer :: after) = overlayAll layers := by
  refine ⟨fun path v hv => ?_, ?_⟩
  · refine (at?_foldl_overlay_iff .null hjson hv).trans (or_iff_left ?_)
    -- below the first layer there is nothing but the whole, and every layer replaces that
    rintro ⟨hnull, hsilent⟩
    cases path with
    | nil =>
      obtain ⟨layer, hlayer⟩ := List.exists_mem_of_ne_nil layers hne
      exact hsilent layer hlayer (overrides_nil layer)
    | cons key path => cases hnull
  · rintro before layer after rfl
    have hlayer := hjson layer (List.mem_append_right _ List.mem_cons_self)
    unfold overlayAll
    rw [List.foldl_append, List.foldl_append, List.foldl_cons, List.foldl_cons, List.foldl_cons,
      overlay_overlay_self hlayer]

end Layers

/-! ### A section that is reset -/

namespace Reset

def first : Value := .record [
  ("bootstrap", .record [("config_map", .string "config"), ("plugins_map", .string "plugins")]),
  ("log_level", .string "info")]

/-- The section gives way to a text. -/
def reset : Value := .record [("bootstrap", .string "off")]

/-- The section is there again. -/
def last : Value := .record [("bootstrap", .record [("plugins_map", .string "jx")])]

def layers : List Value := [first, reset, last]

theorem isJson_of_mem : ∀ layer ∈ layers, layer.IsJson := by
  have hsection {name : String} {v : Value} (hv : v.IsJson) : (Value.record [(name, v)]).IsJson :=
    .record (List.nodup_singleton name) (List.forall_mem_singleton.2 hv)
  simp only [layers, List.forall_mem_cons]
  refine ⟨?first, hsection (.string _), hsection (hsection (.string _)), List.forall_mem_nil _⟩
  refine .record (by decide) (List.forall_mem_cons.2 ⟨.record (by decide) ?maps, ?level⟩)
  · exact List.forall_mem_cons.2 ⟨.string _, List.forall_mem_singleton.2 (.string _)⟩
  · exact List.forall_mem_singleton.2 (.string _)

theorem not_isMapping_string (s : String) : ¬(Value.string s).IsMapping := by
  rintro ⟨es, h⟩
  cases h

theorem overrides_reset (key : String) : reset.Overrides ["bootstrap", key] :=
  overrides_cons_iff.2 ⟨.string "off", rfl,
    overrides_cons_of_not_isMapping (not_isMapping_string "off") key []⟩

/-- Only the first layer says something about the level. -/
theorem prevails_level : Prevails layers ["log_level"] (.string "info") := by
  refine ⟨[], first, [reset, last], rfl, rfl, ?_⟩
  simp only [List.forall_mem_cons]
  refine ⟨fun h => ?_, fun h => ?_, List.forall_mem_nil _⟩
  all_goals
    obtain ⟨x, hx, -⟩ := overrides_cons_iff.1 h
    cases hx

/-- What was in the section before is gone for good. -/
theorem not_prevails_config_map (v : Value) :
    ¬Prevails layers ["bootstrap", "config_map"] v := by
  unfold layers
  rw [prevails_cons_iff, prevails_cons_iff, prevails_cons_iff]
  rintro (⟨-, hlater⟩ | ⟨hv, -⟩ | ⟨hv, -⟩ | h)
  · exact hlater reset List.mem_cons_self (overrides_reset "config_map")
  · cases hv
  · cases hv
  · exact not_prevails_nil h

theorem at?_overlayAll_iff_of_reset :
    layers ≠ [] ∧ (∀ layer ∈ layers, layer.IsJson) ∧
    (overlayAll layers).at? ["log_level"] = some (.string "info") ∧
    (overlayAll layers).at? ["bootstrap", "plugins_map"] = some (.string "jx") ∧
    (∀ v, ¬v.IsMapping → (overlayAll layers).at? ["bootstrap", "config_map"] ≠ some v) ∧
    overlayAll [first, reset, reset, last] = overlayAll layers := by
  have hne : layers ≠ [] := List.cons_ne_nil _ _
  obtain ⟨hiff, htwice⟩ := at?_overlayAll_iff hne isJson_of_mem
  refine ⟨hne, isJson_of_mem, ?_, ?_, ?_, htwice [first] reset [last] rfl⟩
  · exact (hiff _ _ (not_isMapping_string _)).2 prevails_level
  · exact (hiff _ _ (not_isMapping_string _)).2
      ⟨[first, reset], last, [], rfl, rfl, List.forall_mem_nil _⟩
  · exact fun v hv h => not_prevails_config_map v ((hiff _ v hv).1 h)

end Reset

end SchedulerPolicy
