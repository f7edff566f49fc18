import SchedulerPolicy.Proofs.Agreement
import SchedulerPolicy.Proofs.Schema.Recovered

/-!
# Nodes and their values

A document can be read as a type of the schema and as a value, and the two do not look at it in the
same way: a text field takes the number `1` as the text of its notation. What they agree on is told
by the value: where it has a text, the node is read as that text (`Node.readText_of_toValue`), and
the entries of a node are those of its value, in the same order (`Node.forall₂_entries`). Hence a
field is found where the value has an entry under its name (`Fields.exists_find?`).

Under a mapping of any texts, keys of two values may have one notation, and then one of them is
lost. Where all keys are texts (`Value.TextKeyed`), nothing is, and looking up an entry in the node
is looking it up in the value (`Node.textEntries_of_entries`).
-/

namespace SchedulerPolicy

/-! ### Entries of values -/

namespace Value

/-- The entries of a mapping; tags in front of it are passed over. -/
def entries (v : Value) : List (Value × Value) :=
  match v.untag with
  | .map es => es
  | _ => []

theorem get?_eq_find? (v : Value) (key : String) :
    v.get? key = (v.entries.find? fun e => e.1 == .string key).map (·.2) := by
  unfold get? entries
  cases v.untag <;> rfl

/-- Nothing but a text agrees with a text. -/
theorem eq_string_of_beq {v : Value} {s : String} (h : (v == .string s) = true) :
    v = .string s := by
  cases v with
  | string s' => exact congrArg Value.string (beq_iff_eq.1 h)
  | _ => cases h

theorem mem_entries_of_get? {v x : Value} {key : String} (h : v.get? key = some x) :
    (.string key, x) ∈ v.entries := by
  rw [get?_eq_find?] at h
  obtain ⟨⟨k, x'⟩, hfind, rfl⟩ := Option.map_eq_some_iff.1 h
  have hfound := List.find?_some hfind
  have hkey : (k == .string key) = true := hfound
  rw [← eq_string_of_beq hkey]
  exact List.mem_of_find?_eq_some hfind

/-- All keys of a mapping are texts. -/
def TextKeyed (v : Value) : Prop :=
  ∃ es : List (String × Value), v.entries = es.map fun e => (.string e.1, e.2)

theorem entriesDistinct_entries : ∀ {v : Value}, v.hasDistinctKeys = true →
    entriesDistinct v.entries = true
  | .map _, h => h
  | .tagged _ v, h => entriesDistinct_entries (v := v) h
  | .null, _ | .bool _, _ | .int _, _ | .float _, _ | .string _, _ | .seq _, _ => rfl

theorem entriesDistinct_cons_iff {e : Value × Value} {es : List (Value × Value)} :
    entriesDistinct (e :: es) = true ↔
      (∀ e' ∈ es, agrees e.1 e'.1 = false) ∧ e.1.hasDistinctKeys = true ∧
        e.2.hasDistinctKeys = true ∧ entriesDistinct es = true := by
  obtain ⟨k, v⟩ := e
  simp [entriesDistinct, and_assoc]

/-- Mappings inside a value have distinct keys too. -/
theorem hasDistinctKeys_of_get? {v x : Value} {key : String} (h : v.hasDistinctKeys = true)
    (hx : v.get? key = some x) : x.hasDistinctKeys = true := by
  have hmem := mem_entries_of_get? hx
  have hdistinct := entriesDistinct_entries h
  -- the value of an entry is one of those that were checked with the keys
  generalize v.entries = es at hmem hdistinct
  induction es with
  | nil => cases hmem
  | cons e es ih =>
    obtain ⟨-, -, hvalue, hrest⟩ := entriesDistinct_cons_iff.1 hdistinct
    rcases List.mem_cons.1 hmem with rfl | hmem
    · exact hvalue
    · exact ih hmem hrest

end Value

namespace Yaml.Node

/-! ### Tags -/

/-- What has a value without tags has no tag of its own. -/
theorem withOwnTag_of_false {tag : Option String} {x : Decoded Value} {v : Value}
    (h : withOwnTag false tag x = .ok v) (y : Decoded Value) : withOwnTag true tag y = y := by
  unfold withOwnTag at h ⊢
  split at h
  · cases h
  · rfl

-- The induction goes along the two functions that turn the members of a node into values.
mutual

/-- Without tags of its own a node has the same value whether tags are kept or not. -/
theorem toValue_true_of_false : ∀ {n : Node} {v : Value}, n.toValue false = .ok v →
    n.toValue true = .ok v
  | .scalar tag s, v, h => by
    unfold toValue at h ⊢
    split at h
    · next hown =>
      rw [if_pos hown, withOwnTag_of_false h]
      exact withOwnTag_false h
    · next hown =>
      rw [if_neg hown]
      exact h
  | .seq tag items, v, h => by
    unfold toValue at h ⊢
    obtain ⟨vs, hvs, rfl⟩ := map_eq_ok_iff.1 (withOwnTag_false h)
    rw [withOwnTag_of_false h, itemValues_true_of_false hvs]
    rfl
  | .map tag entries, v, h => by
    unfold toValue at h ⊢
    obtain ⟨es, hes, rfl⟩ := map_eq_ok_iff.1 (withOwnTag_false h)
    rw [withOwnTag_of_false h, entryValues_true_of_false hes]
    rfl
  | .unreadable, v, h => by
    unfold toValue at h
    cases h

theorem itemValues_true_of_false : ∀ {ns : List Node} {vs : List Value},
    itemValues false ns = .ok vs → itemValues true ns = .ok vs
  | [], vs, h => h
  | n :: ns, vs, h => by
    unfold itemValues at h ⊢
    obtain ⟨v, hv, hrest⟩ := bind_eq_ok_iff.1 h
    obtain ⟨ws, hws, hvs⟩ := bind_eq_ok_iff.1 hrest
    exact bind_eq_of_ok (toValue_true_of_false hv)
      (bind_eq_of_ok (itemValues_true_of_false hws) hvs)

theorem entryValues_true_of_false : ∀ {ns : List (Node × Node)} {es : List (Value × Value)},
    entryValues false ns = .ok es → entryValues true ns = .ok es
  | [], es, h => h
  | (k, n) :: ns, es, h => by
    unfold entryValues at h ⊢
    obtain ⟨key, hkey, hrest⟩ := bind_eq_ok_iff.1 h
    obtain ⟨v, hv, hrest⟩ := bind_eq_ok_iff.1 hrest
    obtain ⟨others, hothers, hes⟩ := bind_eq_ok_iff.1 hrest
    exact bind_eq_of_ok (toValue_true_of_false hkey)
      (bind_eq_of_ok (toValue_true_of_false hv)
        (bind_eq_of_ok (entryValues_true_of_false hothers) hes))

end

/-! ### Scalars -/

section Scalars

variable {v : Value} {text : String} {tag : Option String} {s : Scalar}

/-- A tag of its own is put in front of a value, and any other is dropped. -/
theorem exists_of_withOwnTag {x : Decoded Value} (h : withOwnTag true tag x = .ok v) :
    ∃ w, x = .ok w ∧ ((ownTag? tag = none ∧ v = w) ∨ ∃ name, v = .tagged name w) := by
  unfold withOwnTag at h
  split at h
  · next name _ =>
    obtain ⟨w, hw, rfl⟩ := map_eq_ok_iff.1 h
    exact ⟨w, hw, Or.inr ⟨name, rfl⟩⟩
  · next htag => exact ⟨v, h, Or.inl ⟨htag, rfl⟩⟩

/-- A value of a scalar that was written as a text: no mapping, and a text only as it was written
and where `isText` says so. -/
structure Spelled (text : String) (isText : Prop) (v : Value) : Prop where
  entries : v.entries = []
  text : ∀ t, v = .string t → text = t ∧ isText

theorem spelled_plainValue (h : plainValue text = .ok v) : Spelled text (plain text = .text) v := by
  unfold plainValue at h
  split at h
  -- an integer, which may be out of range; the fifth notation is that of a text
  case h_3 =>
    split at h
    · obtain rfl := Except.ok.inj h
      exact ⟨rfl, nofun⟩
    · cases h
  case h_5 hplain =>
    obtain rfl := Except.ok.inj h
    exact ⟨rfl, fun t ht => ⟨Value.string.inj ht, hplain⟩⟩
  all_goals
    obtain rfl := Except.ok.inj h
    exact ⟨rfl, nofun⟩

theorem spelled_untaggedValue (h : untaggedValue s = .ok v) :
    Spelled s.text (s.isPlain = true → plain s.text = .text) v := by
  unfold untaggedValue at h
  split at h
  · -- a plain scalar is a text where no other notation fits, a quoted one always
    have hspelled := spelled_plainValue h
    exact ⟨hspelled.entries, fun t ht => (hspelled.text t ht).imp_right fun hplain _ => hplain⟩
  · next hplain =>
    obtain rfl := Except.ok.inj h
    exact ⟨rfl, fun t ht => ⟨Value.string.inj ht, fun h => absurd h hplain⟩⟩

theorem spelled_taggedValue {tag : String} (h : taggedValue tag s = .ok v) :
    Spelled s.text (tag ≠ coreTag "null") v := by
  unfold taggedValue at h
  dsimp only at h
  split at h
  · split at h
    · next w hw =>
      obtain ⟨b, -, rfl⟩ := Option.map_eq_some_iff.1 hw
      obtain rfl := Except.ok.inj h
      exact ⟨rfl, nofun⟩
    · cases h
  · split at h
    · next hint =>
      split at h
      · have hspelled := spelled_plainValue h
        refine ⟨hspelled.entries, fun t ht => ⟨(hspelled.text t ht).1, ?_⟩⟩
        rw [eq_of_beq hint]
        decide
      · cases h
    · split at h
      · split at h
        · next w hw =>
          obtain ⟨x, -, rfl⟩ := Option.map_eq_some_iff.1 hw
          obtain rfl := Except.ok.inj h
          exact ⟨rfl, nofun⟩
        · cases h
      · split at h
        · split at h
          · obtain rfl := Except.ok.inj h
            exact ⟨rfl, nofun⟩
          · cases h
        · -- the tag names no kind of scalar, so the value is a text
          next hnull =>
          obtain rfl := Except.ok.inj h
          exact ⟨rfl, fun t ht => ⟨Value.string.inj ht, fun heq => hnull (beq_iff_eq.2 heq)⟩⟩

theorem not_null_of_plain (h : plain text = .text) : (text.isEmpty || isNull text) = false := by
  unfold plain at h
  split at h
  · cases h
  · next hnull => exact Bool.eq_false_iff.2 hnull

/-- A scalar whose value is a text is read as that text, also where it may be absent. -/
theorem spelled_toValue (h : (Node.scalar tag s).toValue true = .ok v) :
    Spelled s.text (present (.scalar tag s) = .ok (some (.scalar tag s))) v := by
  unfold toValue at h
  split at h
  · next hown =>
    -- the value has the tag in front of it, so it is no text
    obtain ⟨w, hw, ⟨hnone, -⟩ | ⟨name, rfl⟩⟩ := exists_of_withOwnTag h
    · rw [hnone] at hown
      cases hown
    · exact ⟨(spelled_untaggedValue hw).entries, nofun⟩
  · unfold present
    dsimp only
    split at h
    · next tag _ =>
      have hspelled := spelled_taggedValue h
      refine ⟨hspelled.entries, fun t ht => (hspelled.text t ht).imp_right fun hnull => ?_⟩
      split
      · rfl
      · exact if_neg (mt beq_iff_eq.1 hnull)
    · have hspelled := spelled_untaggedValue h
      refine ⟨hspelled.entries, fun t ht => (hspelled.text t ht).imp_right fun hplain => ?_⟩
      split
      · rfl
      · next hquoted =>
        have hnull := not_null_of_plain (hplain (by simpa using hquoted))
        rw [if_neg (by simp [hnull])]

end Scalars

/-- Where the value is a text, the node is read as that text. -/
theorem readText_of_toValue {n : Node} {t : String} (h : n.toValue true = .ok (.string t)) :
    n.readText = .ok t ∧ present n = .ok (some n) := by
  cases n with
  | scalar tag s =>
    obtain ⟨htext, hpresent⟩ := (spelled_toValue h).text t rfl
    exact ⟨congrArg Except.ok htext, hpresent⟩
  | seq tag items =>
    unfold toValue at h
    obtain ⟨w, hw, ⟨-, rfl⟩ | ⟨name, hname⟩⟩ := exists_of_withOwnTag h
    · obtain ⟨vs, -, hvs⟩ := map_eq_ok_iff.1 hw
      cases hvs
    · cases hname
  | map tag entries =>
    unfold toValue at h
    obtain ⟨w, hw, ⟨-, rfl⟩ | ⟨name, hname⟩⟩ := exists_of_withOwnTag h
    · obtain ⟨es, -, hes⟩ := map_eq_ok_iff.1 hw
      cases hes
    · cases hname
  | unreadable =>
    unfold toValue at h
    cases h

/-! ### Entries -/

/-- An entry that is read and the entry of the value that it is: the key is read as a text, and when
the value has a text there, it is the same. -/
structure EntryOf (e : String × Node) (entry : Value × Value) : Prop where
  key : ∀ t, entry.1 = .string t → e.1 = t
  value : e.2.toValue true = .ok entry.2

theorem forall₂_textEntries : ∀ {ns : List (Node × Node)} {es : List (String × Node)}
    {entries : List (Value × Value)}, textEntries ns = .ok es → entryValues true ns = .ok entries →
    List.Forall₂ EntryOf es entries
  | [], es, entries, hes, hentries => by
    obtain rfl := Except.ok.inj hes
    obtain rfl := Except.ok.inj hentries
    exact .nil
  | (k, n) :: ns, es, entries, hes, hentries => by
    unfold textEntries at hes
    unfold entryValues at hentries
    obtain ⟨key, hkey, hes⟩ := bind_eq_ok_iff.1 hes
    obtain ⟨others, hothers, hes⟩ := bind_eq_ok_iff.1 hes
    obtain rfl := Except.ok.inj hes
    obtain ⟨kv, hkv, hentries⟩ := bind_eq_ok_iff.1 hentries
    obtain ⟨v, hv, hentries⟩ := bind_eq_ok_iff.1 hentries
    obtain ⟨rest, hrest, hentries⟩ := bind_eq_ok_iff.1 hentries
    obtain rfl := Except.ok.inj hentries
    -- where the value has a text for a key, the node was read as that text
    refine .cons ⟨fun t ht => ?_, hv⟩ (forall₂_textEntries hothers hrest)
    obtain rfl : kv = .string t := ht
    exact Except.ok.inj (hkey.symm.trans (readText_of_toValue hkv).1)

/-- **The entries of a node are those of its value.** -/
theorem forall₂_entries {n : Node} {v : Value} {names : List String} {es : List (String × Node)}
    (hv : n.toValue true = .ok v) (hes : Readable.entries names n = .ok es) :
    List.Forall₂ EntryOf es v.entries := by
  cases n with
  | map tag ns =>
    unfold toValue at hv
    obtain ⟨w, hw, hvw⟩ := exists_of_withOwnTag hv
    obtain ⟨entries, hentries, rfl⟩ := map_eq_ok_iff.1 hw
    have hsame : v.entries = entries := by
      rcases hvw with ⟨-, rfl⟩ | ⟨name, rfl⟩ <;> rfl
    rw [hsame]
    exact forall₂_textEntries hes hentries
  | scalar tag s =>
    -- a section without content
    rw [(spelled_toValue hv).entries]
    change (if _ then _ else _) = _ at hes
    split at hes
    · obtain rfl := Except.ok.inj hes
      exact .nil
    · cases hes
  | seq tag items => cases hes
  | unreadable => cases hes

end Yaml.Node

/-! ### Fields -/

namespace Fields

variable {ν : Type} {names : List String} {es : List (String × ν)} {key : String}

/-- What does not stand in two entries is found in the one. -/
theorem lookup_of_not_repeats {x : ν} (h : repeats es key = false) (hmem : (key, x) ∈ es) :
    es.lookup key = some x := by
  have hcount : (es.filter fun e => e.1 == key).length ≤ 1 :=
    Nat.le_of_not_lt (of_decide_eq_false h)
  have hfound : (key, x) ∈ es.filter fun e => e.1 == key :=
    List.mem_filter.2 ⟨hmem, beq_self_eq_true key⟩
  rw [← lookup_filter (p := fun e => e.1 == key) fun e _ he => beq_iff_eq.2 he]
  -- the entries under the key are the one
  rcases hl : es.filter fun e => e.1 == key with _ | ⟨e, _ | ⟨e', rest⟩⟩
  · rw [hl] at hfound
    cases hfound
  · rw [hl] at hfound
    obtain rfl := List.mem_singleton.1 hfound
    rw [hl, List.lookup_cons, beq_self_eq_true]
  · rw [hl] at hcount
    simp at hcount

theorem repeats_of_ofReadable [Readable ν] {x : ν} {fs : Fields ν}
    (h : ofReadable names x = .ok fs) : ∀ name ∈ names, repeats fs.entries name = false := by
  unfold ofReadable at h
  obtain ⟨es, -, hfs⟩ := bind_eq_ok_iff.1 h
  split at hfs
  · cases hfs
  · next hnone =>
    obtain rfl := Except.ok.inj hfs
    exact fun name hname => Bool.eq_false_iff.2 (List.find?_eq_none.1 hnone name hname)

/-- **A field is found** where the value has an entry under its name. -/
theorem exists_find? {n : Yaml.Node} {v x : Value} {fs : Fields Yaml.Node}
    (hv : n.toValue true = .ok v) (hfs : ofReadable names n = .ok fs) (hkey : key ∈ names)
    (hx : v.get? key = some x) : ∃ c, fs.find? key = some c ∧ c.toValue true = .ok x := by
  have hentries := Yaml.Node.forall₂_entries hv (entries_of_ofReadable hfs)
  obtain ⟨⟨k, c⟩, hmem, hentry⟩ : ∃ e ∈ fs.entries, Yaml.Node.EntryOf e (.string key, x) := by
    have hmem := Value.mem_entries_of_get? hx
    generalize v.entries = entries at hentries hmem
    generalize fs.entries = es at hentries
    -- entries are in the same order, so the one beside that of the value is there
    induction hentries with
    | nil => cases hmem
    | cons he _ ih =>
      rcases List.mem_cons.1 hmem with rfl | hmem
      · exact ⟨_, List.mem_cons_self, he⟩
      · obtain ⟨e, hmem, he⟩ := ih hmem
        exact ⟨e, List.mem_cons_of_mem _ hmem, he⟩
  obtain rfl : k = key := hentry.key key rfl
  exact ⟨c, lookup_of_not_repeats (repeats_of_ofReadable hfs _ hkey) hmem, hentry.value⟩

end Fields

/-! ### Mappings of texts -/

namespace Value

/-- Where keys are texts, entries with distinct keys are entries under different texts. -/
theorem nodup_of_entriesDistinct {es : List (String × Value)}
    (h : entriesDistinct (es.map fun e => (.string e.1, e.2)) = true) :
    (es.map Prod.fst).Nodup := by
  induction es with
  | nil => exact List.nodup_nil
  | cons e es ih =>
    rw [List.map_cons, entriesDistinct_cons_iff] at h
    obtain ⟨hne, -, -, hrest⟩ := h
    rw [List.map_cons, List.nodup_cons]
    refine ⟨fun hmem => ?_, ih hrest⟩
    obtain ⟨e', he', hsame⟩ := List.mem_map.1 hmem
    have hagree := hne _ (List.mem_map_of_mem he')
    dsimp only at hagree
    rw [hsame, agrees_refl] at hagree
    cases hagree

theorem get?_of_entries {v : Value} {es : List (String × Value)}
    (h : v.entries = es.map fun e => (.string e.1, e.2)) (key : String) :
    v.get? key = es.lookup key := by
  rw [get?_eq_find?, h, ← get?_record, get?_eq_find?]
  rfl

end Value

/-- The entries of a mapping from texts, as they are read: under every key stands what the value has
there. -/
structure TextEntries (v : Value) (es : List (String × Yaml.Node)) : Prop where
  nodup : (es.map Prod.fst).Nodup
  found : ∀ {key c}, es.lookup key = some c → ∃ x, c.toValue true = .ok x ∧ v.get? key = some x
  absent : ∀ {key}, es.lookup key = none → v.get? key = none

theorem Yaml.Node.textEntries_of_entries {n : Node} {v : Value} {names : List String}
    {es : List (String × Node)} (hv : n.toValue true = .ok v)
    (hes : Readable.entries names n = .ok es) (hdistinct : v.hasDistinctKeys = true)
    (hkeys : v.TextKeyed) : TextEntries v es := by
  obtain ⟨xs, hxs⟩ := hkeys
  have hentries := forall₂_entries hv hes
  have hnodup := Value.entriesDistinct_entries hdistinct
  rw [hxs] at hentries hnodup
  rw [List.forall₂_map_right_iff] at hentries
  have hkey : es.map Prod.fst = xs.map Prod.fst := by
    clear hes hnodup hxs
    induction hentries with
    | nil => rfl
    | cons he _ ih => rw [List.map_cons, List.map_cons, ih, he.key _ rfl]
  -- the same keys in the same order lead to entries of each other
  have hlookup : ∀ key, (es.lookup key = none ∧ xs.lookup key = none) ∨
      ∃ c x, es.lookup key = some c ∧ xs.lookup key = some x ∧ c.toValue true = .ok x := by
    intro key
    clear hes hnodup hxs hkey
    induction hentries with
    | nil => exact Or.inl ⟨rfl, rfl⟩
    | @cons e x es xs he _ ih =>
      rw [List.lookup_cons, List.lookup_cons, he.key _ rfl]
      cases key == x.1 with
      | false => exact ih
      | true => exact Or.inr ⟨e.2, x.2, rfl, rfl, he.value⟩
  constructor
  case nodup => exact hkey ▸ Value.nodup_of_entriesDistinct hnodup
  case found =>
    intro key c hc
    rw [Value.get?_of_entries hxs]
    rcases hlookup key with ⟨hnone, -⟩ | ⟨c', x, hc', hx, hvalue⟩
    · rw [hnone] at hc
      cases hc
    · obtain rfl := Option.some.inj (hc.symm.trans hc')
      exact ⟨x, hvalue, hx⟩
  case absent =>
    intro key hnone
    rw [Value.get?_of_entries hxs]
    rcases hlookup key with ⟨-, hx⟩ | ⟨c, x, hc, -⟩
    · exact hx
    · rw [hnone] at hc
      cases hc

section ReadEntries

variable {ν α : Type} [Readable ν] [Schema α] {es : List (String × ν)} {acc m : Keyed α}
  {key : String}

theorem get?_readEntries_of_notMem (h : readEntries acc es = .ok m)
    (hkey : key ∉ es.map Prod.fst) : m.get? key = acc.get? key := by
  induction es generalizing acc with
  | nil =>
    obtain rfl : acc = m := Except.ok.inj h
    rfl
  | cons e es ih =>
    rw [List.map_cons, List.mem_cons, not_or] at hkey
    obtain ⟨y, -, hrest⟩ := bind_eq_ok_iff.1 h
    rw [ih hrest hkey.2, Keyed.get?_insert, if_neg hkey.1]

/-- Without repeated keys, what is read of a mapping is what stands under each key. -/
theorem get?_readEntries (hnodup : (es.map Prod.fst).Nodup) (h : readEntries acc es = .ok m)
    {x : ν} (hx : es.lookup key = some x) : ∃ a, read x = .ok a ∧ m.get? key = some a := by
  induction es generalizing acc with
  | nil => cases hx
  | cons e es ih =>
    rw [List.map_cons, List.nodup_cons] at hnodup
    obtain ⟨y, hy, hrest⟩ := bind_eq_ok_iff.1 h
    rw [List.lookup_cons] at hx
    split at hx
    · next hkey =>
      obtain rfl := eq_of_beq hkey
      obtain rfl := Option.some.inj hx
      refine ⟨y, hy, ?_⟩
      rw [get?_readEntries_of_notMem hrest hnodup.1, Keyed.get?_insert, if_pos rfl]
    · exact ih hnodup.2 hrest hx

end ReadEntries

/-- Of entries under different keys, each one counts. -/
theorem Keyed.get?_ofList_of_nodup {β : Type} {es : List (String × β)}
    (h : (es.map Prod.fst).Nodup) (key : String) : (ofList es).get? key = es.lookup key := by
  have hreverse : (es.reverse.map Prod.fst).Nodup := by
    rw [List.map_reverse]
    exact List.nodup_reverse.2 h
  refine Option.ext fun x => ?_
  rw [get?_ofList, lookup_eq_some_iff hreverse, lookup_eq_some_iff h, List.mem_reverse]

namespace Fields

variable {ν : Type} [Readable ν] {names : List String} {es : List (String × ν)} {key : String}
  {kept : List (String × Value)}

/-- Under a name that is no field stands nothing, or what stands there is kept. -/
theorem lookup_contentOf (h : contentOf names es = .ok kept) (hkey : key ∉ names) :
    (es.lookup key = none ∧ kept.lookup key = none) ∨
      ∃ x v, es.lookup key = some x ∧ Readable.content x = .ok v ∧ kept.lookup key = some v := by
  induction es generalizing kept with
  | nil =>
    obtain rfl := Except.ok.inj h
    exact Or.inl ⟨rfl, rfl⟩
  | cons e es ih =>
    by_cases hname : e.1 ∈ names
    · -- the entry of a field is under another name
      have hne : key ≠ e.1 := fun heq => hkey (heq ▸ hname)
      rw [contentOf_cons_of_mem hname] at h
      rw [List.lookup_cons, beq_false_of_ne hne]
      exact ih h
    · rw [contentOf_cons_of_notMem hname] at h
      obtain ⟨v, hv, hrest⟩ := bind_eq_ok_iff.1 h
      obtain ⟨others, hothers, hkept⟩ := bind_eq_ok_iff.1 hrest
      obtain rfl := Except.ok.inj hkept
      rw [List.lookup_cons, List.lookup_cons]
      cases key == e.1 with
      | true => exact Or.inr ⟨e.2, v, rfl, hv, rfl⟩
      | false => exact ih hothers

theorem map_fst_contentOf (h : contentOf names es = .ok kept) :
    (kept.map Prod.fst).Sublist (es.map Prod.fst) := by
  induction es generalizing kept with
  | nil =>
    obtain rfl := Except.ok.inj h
    exact List.Sublist.slnil
  | cons e es ih =>
    by_cases hname : e.1 ∈ names
    · rw [contentOf_cons_of_mem hname] at h
      exact (ih h).cons _
    · rw [contentOf_cons_of_notMem hname] at h
      obtain ⟨v, -, hrest⟩ := bind_eq_ok_iff.1 h
      obtain ⟨others, hothers, hkept⟩ := bind_eq_ok_iff.1 hrest
      obtain rfl := Except.ok.inj hkept
      exact (ih hothers).cons_cons _

/-- **Further keys are kept** with what the value has under them. -/
theorem get?_extra {v : Value} {fs : Fields Yaml.Node} {extra : Keyed Value}
    (hfs : TextEntries v fs.entries) (hextra : fs.extra names = .ok extra) (hkey : key ∉ names) :
    extra.get? key = v.get? key := by
  obtain ⟨kept, hkept, -, rfl⟩ := exists_kept_of_extra hextra
  rw [Keyed.get?_ofList_of_nodup (hfs.nodup.sublist (map_fst_contentOf hkept))]
  rcases lookup_contentOf hkept hkey with ⟨hnone, hlookup⟩ | ⟨c, w, hc, hw, hlookup⟩
  · rw [hlookup, hfs.absent hnone]
  · obtain ⟨x, hx, hget⟩ := hfs.found hc
    have hvalue : c.toValue true = .ok w := Yaml.Node.toValue_true_of_false hw
    rw [hlookup, hget, Except.ok.inj (hvalue.symm.trans hx)]

end Fields

end SchedulerPolicy
