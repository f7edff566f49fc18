import Mathlib.Data.List.Nodup
import SchedulerPolicy.Codec
import SchedulerPolicy.Proofs.Keyed
import SchedulerPolicy.Proofs.Steps

/-!
# Reading what was written

A value of the schema comes back when reading what is written of it gives the value again
(`ReadsBack`). It has to come back from a typed value and, where a section shares its keys with
another type, from a buffered one; so it is asked of every source that shows values without tags as
they are (`Shows`). What comes back is, for many types, every value (`Faithful`), and for the others
every value that was read, from whatever source keeps no tags (`Settles`).

A record is written field by field, and a field that holds nothing leaves no entry. What is written
is described by slots, one for every field, some of which are empty (`filled`). As no two slots have
one name, the entry that is found under a name is that of its slot (`Fields.find?_filled`), and the
empty slots can be told from those that are full.
-/

namespace SchedulerPolicy

/-! ### Sources -/

/-- A source that shows a value without tags as what it is. -/
class Shows (ν : Type) [Readable ν] where
  of : Value → ν
  present? : ∀ {v}, v ≠ .null → Readable.present? (of v) = .ok (some (of v))
  text : ∀ s, Readable.text (of (.string s)) = .ok s
  flag : ∀ b, Readable.flag (of (.bool b)) = .ok b
  count : ∀ n : UInt32, Readable.count (of (.int n.toNat)) = .ok n
  items : ∀ vs, Readable.items (of (.seq vs)) = .ok (vs.map of)
  entries : ∀ names es, Readable.entries names (of (.record es)) =
    .ok (es.map fun e => (e.1, of e.2))
  content : ∀ {v}, v.isTagFree = true → Readable.content (of v) = .ok v

theorem count?_toNat (n : UInt32) : count? n.toNat = .ok n := by
  -- a count is in range when it is that of a machine word
  have hrange : 0 ≤ (n.toNat : Int) ∧ (n.toNat : Int) ≤ 0xffffffff := by
    have hlt := n.toNat_lt
    omega
  unfold count?
  rw [if_pos hrange, Int.toNat_natCast, UInt32.ofNat_toNat]

theorem Value.textEntries_record (es : List (String × Value)) :
    textEntries (es.map fun e => (.string e.1, e.2)) = .ok es := by
  induction es with
  | nil => rfl
  | cons e es ih =>
    rw [List.map_cons]
    unfold textEntries
    rw [ih]
    rfl

theorem Buffered.namedEntries_record (names : List String) (es : List (String × Value)) :
    namedEntries names (es.map fun e => (.string e.1, e.2)) =
      .ok (es.map fun e => (e.1, Buffered.mk e.2)) := by
  induction es with
  | nil => rfl
  | cons e es ih =>
    rw [List.map_cons, List.map_cons]
    unfold namedEntries
    rw [ih]
    rfl

instance : Shows Value where
  of := id
  present? {v} h := by
    cases v with
    | null => exact absurd rfl h
    | _ => rfl
  text _ := rfl
  flag _ := rfl
  count := count?_toNat
  items vs := by
    rw [List.map_id]
    rfl
  entries _ es := (Value.textEntries_record es).trans (congrArg Except.ok (List.map_id es).symm)
  content h := if_pos h

instance : Shows Buffered where
  of := Buffered.mk
  present? {v} h := by
    cases v with
    | null => exact absurd rfl h
    | _ => rfl
  text _ := rfl
  flag _ := rfl
  count := count?_toNat
  items _ := rfl
  entries := Buffered.namedEntries_record
  content _ := rfl

/-- A source of which no tag is kept. -/
class Untagged (ν : Type) [Readable ν] : Prop where
  tagFree_of_content : ∀ {x : ν} {v : Value}, Readable.content x = .ok v → v.isTagFree = true

instance : Untagged Value where
  tagFree_of_content {x v} h := by
    change (if x.isTagFree then .ok x else .error _) = Except.ok v at h
    split at h
    · next hfree => rwa [← Except.ok.inj h]
    · cases h

/-! ### Values that come back -/

/-- What is written of a value is not null, carries no tags, and is read as the value. -/
structure ReadsBack {α : Type} [Schema α] (a : α) : Prop where
  ne_null : write a ≠ .null
  tagFree : (write a).isTagFree = true
  read_write : ∀ (ν : Type) [Readable ν] [Shows ν], read (Shows.of (write a) : ν) = .ok a

/-- A type of which every value comes back. -/
class Faithful (α : Type) [Schema α] : Prop where
  readsBack : ∀ a : α, ReadsBack a

/-- A type of which every value comes back that can be read. -/
class Settles (α : Type) [Schema α] : Prop where
  settles : ∀ {ν : Type} [Readable ν] [Untagged ν] {x : ν} {a : α}, read x = .ok a → ReadsBack a

/-- What was read is read again from what is written of it. -/
theorem read_write_of_settles {α : Type} [Schema α] [Settles α] {x : Value} {a : α}
    (h : read x = .ok a) : read (write a) = .ok a :=
  (Settles.settles h).read_write Value

instance (α : Type) [Schema α] [Faithful α] : Settles α where
  settles _ := Faithful.readsBack _

instance : Faithful String where
  readsBack _ := { ne_null := nofun, tagFree := rfl, read_write := fun _ => Shows.text _ }

instance : Faithful Bool where
  readsBack _ := { ne_null := nofun, tagFree := rfl, read_write := fun _ => Shows.flag _ }

instance : Faithful UInt32 where
  readsBack _ := { ne_null := nofun, tagFree := rfl, read_write := fun _ => Shows.count _ }

/-! ### Lists and maps -/

section Collections

variable {α : Type} [Schema α]

theorem Value.itemsTagFree_iff {vs : List Value} :
    itemsTagFree vs = true ↔ ∀ v ∈ vs, v.isTagFree = true := by
  induction vs with
  | nil => exact ⟨fun _ => List.forall_mem_nil _, fun _ => rfl⟩
  | cons v vs ih =>
    rw [itemsTagFree, Bool.and_eq_true, ih, List.forall_mem_cons]

theorem Value.isTagFree_record_iff {es : List (String × Value)} :
    (Value.record es).isTagFree = true ↔ ∀ e ∈ es, e.2.isTagFree = true := by
  change entriesTagFree _ = true ↔ _
  induction es with
  | nil => exact ⟨fun _ => List.forall_mem_nil _, fun _ => rfl⟩
  | cons e es ih =>
    rw [List.map_cons, entriesTagFree, Bool.and_eq_true, Bool.and_eq_true, ih, List.forall_mem_cons]
    exact and_congr_left' (and_iff_right rfl)

theorem readAll_of_readsBack {xs : List α} (h : ∀ x ∈ xs, ReadsBack x) (ν : Type) [Readable ν]
    [Shows ν] : readAll ((xs.map write).map (Shows.of : Value → ν)) = .ok xs := by
  induction xs with
  | nil => rfl
  | cons x xs ih =>
    rw [List.forall_mem_cons] at h
    rw [List.map_cons, List.map_cons]
    unfold readAll
    rw [h.1.read_write, ih h.2]
    rfl

theorem readsBack_list {xs : List α} (h : ∀ x ∈ xs, ReadsBack x) : ReadsBack xs where
  ne_null := nofun
  tagFree := by
    change Value.itemsTagFree (xs.map write) = true
    rw [Value.itemsTagFree_iff, List.forall_mem_map]
    exact fun x hx => (h x hx).tagFree
  read_write ν _ _ := bind_eq_of_ok (Shows.items _) (readAll_of_readsBack h ν)

theorem readsBack_of_readAll [Settles α] {ν : Type} [Readable ν] [Untagged ν] {vs : List ν}
    {xs : List α} (h : readAll vs = .ok xs) : ∀ x ∈ xs, ReadsBack x := by
  induction vs generalizing xs with
  | nil =>
    obtain rfl : [] = xs := Except.ok.inj h
    exact List.forall_mem_nil _
  | cons v vs ih =>
    unfold readAll at h
    obtain ⟨y, hy, hrest⟩ := bind_eq_ok_iff.1 h
    obtain ⟨ys, hys, hxs⟩ := bind_eq_ok_iff.1 hrest
    obtain rfl : y :: ys = xs := Except.ok.inj hxs
    exact List.forall_mem_cons.2 ⟨Settles.settles hy, ih hys⟩

instance [Faithful α] : Faithful (List α) where
  readsBack _ := readsBack_list fun x _ => Faithful.readsBack x

instance [Settles α] : Settles (List α) where
  settles h := by
    obtain ⟨vs, -, hvs⟩ := bind_eq_ok_iff.1 h
    exact readsBack_list (readsBack_of_readAll hvs)

/-- Entries are read one after the other into the map. -/
theorem readEntries_of_readsBack {es : List (String × α)} (h : ∀ e ∈ es, ReadsBack e.2)
    (acc : Keyed α) (ν : Type) [Readable ν] [Shows ν] :
    readEntries acc (es.map fun e => (e.1, (Shows.of (write e.2) : ν))) =
      .ok (es.foldl (fun m e => m.insert e.1 e.2) acc) := by
  induction es generalizing acc with
  | nil => rfl
  | cons e es ih =>
    rw [List.forall_mem_cons] at h
    rw [List.map_cons, List.foldl_cons]
    exact bind_eq_of_ok (h.1.read_write ν) (ih h.2 _)

theorem readsBack_keyed {m : Keyed α} (h : ∀ e ∈ m.entries, ReadsBack e.2) : ReadsBack m where
  ne_null := nofun
  tagFree := by
    change (Value.record (m.entries.map fun e => (e.1, write e.2))).isTagFree = true
    rw [Value.isTagFree_record_iff, List.forall_mem_map]
    exact fun e he => (h e he).tagFree
  read_write ν _ _ := by
    have hentries := Shows.entries (ν := ν) [] (m.entries.map fun e => (e.1, write e.2))
    refine bind_eq_of_ok hentries ?_
    rw [List.map_map]
    calc readEntries ∅ (m.entries.map fun e => (e.1, (Shows.of (write e.2) : ν)))
        = .ok (m.entries.foldl (fun m e => m.insert e.1 e.2) ∅) :=
          readEntries_of_readsBack h ∅ ν
      _ = .ok (Keyed.ofList m.entries) := rfl
      _ = .ok m := by rw [Keyed.ofList_entries]

theorem readsBack_of_readEntries [Settles α] {ν : Type} [Readable ν] [Untagged ν]
    {es : List (String × ν)} {acc m : Keyed α} (hacc : ∀ key, ∀ a ∈ acc.get? key, ReadsBack a)
    (h : readEntries acc es = .ok m) : ∀ key, ∀ a ∈ m.get? key, ReadsBack a := by
  induction es generalizing acc with
  | nil =>
    obtain rfl : acc = m := Except.ok.inj h
    exact hacc
  | cons e es ih =>
    unfold readEntries at h
    obtain ⟨y, hy, hrest⟩ := bind_eq_ok_iff.1 h
    refine ih (fun key a ha => ?_) hrest
    -- a value of the longer map is the one that was read last, or it was there before
    rw [Keyed.get?_insert] at ha
    split at ha
    · rw [← Option.some.inj ha]
      exact Settles.settles hy
    · exact hacc key a ha

instance [Faithful α] : Faithful (Keyed α) where
  readsBack _ := readsBack_keyed fun e _ => Faithful.readsBack e.2

instance [Settles α] : Settles (Keyed α) where
  settles h := by
    obtain ⟨es, -, hes⟩ := bind_eq_ok_iff.1 h
    have hvalues := readsBack_of_readEntries (by rintro key a ⟨⟩) hes
    exact readsBack_keyed fun e he => hvalues e.1 e.2 (Keyed.get?_eq_some_iff.2 he)

end Collections

/-! ### Records -/

/-- The name of a field, and the value that it is written as unless it is left out. -/
abbrev Slot := String × Option Value

/-- The entries of the slots that are full. -/
def filled (slots : List Slot) : List (String × Value) :=
  slots.filterMap fun s => s.2.map fun v => (s.1, v)

variable {slots slots' : List Slot}

theorem filled_append : filled (slots ++ slots') = filled slots ++ filled slots' :=
  List.filterMap_append

/-- Slots that are all full. -/
def full (es : List (String × Value)) : List Slot := es.map fun e => (e.1, some e.2)

theorem filled_full (es : List (String × Value)) : filled (full es) = es := by
  unfold filled full
  rw [List.filterMap_map]
  exact List.filterMap_some

theorem map_fst_full (es : List (String × Value)) :
    (full es).map Prod.fst = es.map Prod.fst := by
  unfold full
  rw [List.map_map]
  rfl

theorem mem_filled {e : String × Value} : e ∈ filled slots ↔ (e.1, some e.2) ∈ slots := by
  unfold filled
  rw [List.mem_filterMap]
  constructor
  · rintro ⟨⟨name, v⟩, hmem, heq⟩
    obtain ⟨v', rfl, rfl⟩ := Option.map_eq_some_iff.1 heq
    exact hmem
  · intro hmem
    exact ⟨(e.1, some e.2), hmem, rfl⟩

theorem nodup_filled (h : (slots.map Prod.fst).Nodup) : ((filled slots).map Prod.fst).Nodup := by
  refine List.pairwise_map.2 ((List.pairwise_map.1 h).filterMap _ ?_)
  intro s s' hne e he e' he'
  obtain ⟨v, -, rfl⟩ := Option.map_eq_some_iff.1 he
  obtain ⟨v', -, rfl⟩ := Option.map_eq_some_iff.1 he'
  exact hne

theorem lookup_filled (h : (slots.map Prod.fst).Nodup) {s : Slot} (hs : s ∈ slots) :
    (filled slots).lookup s.1 = s.2 := by
  cases hv : s.2 with
  | some v =>
    -- names are distinct, so the entry of the slot is the one that is found
    have hmem : (s.1, v) ∈ filled slots := mem_filled.2 (hv ▸ hs)
    exact (Keyed.lookup_eq_some_iff (nodup_filled h)).2 hmem
  | none =>
    -- an entry of the name would come from another slot of the name
    refine List.lookup_eq_none_iff.2 fun e he => ?_
    rw [bne_iff_ne]
    intro heq
    have hfound := (Keyed.lookup_eq_some_iff h).2 (mem_filled.1 he)
    have hslot := (Keyed.lookup_eq_some_iff h).2 hs
    rw [heq, hfound, hv] at hslot
    cases hslot

/-- A value that is written as a record comes back when it is read from the record. -/
theorem ReadsBack.of_record {ρ : Type} [Schema ρ] {r : ρ} {es : List (String × Value)}
    (hwrite : write r = .record es) (htagFree : ∀ e ∈ es, e.2.isTagFree = true)
    (hread : ∀ (ν : Type) [Readable ν] [Shows ν], read (Shows.of (.record es) : ν) = .ok r) :
    ReadsBack r where
  ne_null := by
    rw [hwrite]
    exact nofun
  tagFree := by
    rw [hwrite]
    exact Value.isTagFree_record_iff.2 htagFree
  read_write ν _ _ := by
    rw [hwrite]
    exact hread ν

/-! ### Records that are read -/

namespace Fields

variable {ν : Type} [Readable ν] [Shows ν]

/-- The fields of a record as they were written. -/
def shown (ν : Type) [Readable ν] [Shows ν] (es : List (String × Value)) : Fields ν :=
  ⟨es.map fun e => (e.1, Shows.of e.2)⟩

theorem find?_shown (es : List (String × Value)) (name : String) :
    (shown ν es).find? name = (es.lookup name).map Shows.of := by
  change (es.map fun e => (e.1, (Shows.of e.2 : ν))).lookup name = _
  induction es with
  | nil => rfl
  | cons e es ih =>
    rw [List.map_cons, List.lookup_cons, List.lookup_cons, ih]
    cases name == e.1 <;> rfl

/-- What is found under the name of a slot is what is in the slot. -/
theorem find?_filled {slots : List Slot} (h : (slots.map Prod.fst).Nodup) {s : Slot}
    (hs : s ∈ slots) : (shown ν (filled slots)).find? s.1 = s.2.map Shows.of := by
  rw [find?_shown, lookup_filled h hs]

/-- No name stands in more than one entry. -/
theorem repeats_of_nodup {β : Type} {es : List (String × β)} (h : (es.map Prod.fst).Nodup)
    (name : String) : repeats es name = false := by
  have hle : (es.filter fun e => e.1 == name).length ≤ 1 := by
    -- the names of these entries are all the same, so there cannot be two
    have hnodup := h.sublist ((List.filter_sublist (p := fun e => e.1 == name)).map Prod.fst)
    have hname : ∀ n ∈ (es.filter fun e => e.1 == name).map Prod.fst, n = name := by
      intro n hn
      obtain ⟨e, he, rfl⟩ := List.mem_map.1 hn
      exact beq_iff_eq.1 (List.mem_filter.1 he).2
    rw [List.eq_replicate_of_mem hname, List.nodup_replicate, List.length_map] at hnodup
    exact hnodup
  unfold repeats
  exact decide_eq_false (Nat.not_lt.2 hle)

theorem find?_repeats_eq_none {β : Type} {es : List (String × β)} (h : (es.map Prod.fst).Nodup)
    (names : List String) : names.find? (repeats es) = none := by
  refine List.find?_eq_none.2 fun name _ => ?_
  rw [repeats_of_nodup h]
  exact Bool.false_ne_true

/-- A record without repeated names is read as it was written. -/
theorem ofReadable_shown {es : List (String × Value)} (h : (es.map Prod.fst).Nodup)
    (names : List String) : ofReadable names (Shows.of (.record es) : ν) = .ok (shown ν es) := by
  have hnodup : ((es.map fun e => (e.1, (Shows.of e.2 : ν))).map Prod.fst).Nodup := by
    rwa [List.map_map]
  unfold ofReadable
  refine bind_eq_of_ok (Shows.entries names es) ?_
  rw [find?_repeats_eq_none hnodup]
  rfl

theorem contentOf_cons_of_mem {ν : Type} [Readable ν] {names : List String} {key : String}
    (h : key ∈ names) (x : ν) (rest : List (String × ν)) :
    contentOf names ((key, x) :: rest) = contentOf names rest :=
  if_pos (List.contains_iff_mem.2 h)

theorem contentOf_cons_of_notMem {ν : Type} [Readable ν] {names : List String} {key : String}
    (h : key ∉ names) (x : ν) (rest : List (String × ν)) :
    contentOf names ((key, x) :: rest) = Readable.content x >>= fun v =>
      contentOf names rest >>= fun kept => pure ((key, v) :: kept) :=
  if_neg (mt List.contains_iff_mem.1 h)

/-- Entries of fields are passed over. -/
theorem contentOf_append {ν : Type} [Readable ν] {names : List String}
    {fields : List (String × ν)} (h : ∀ e ∈ fields, e.1 ∈ names) (rest : List (String × ν)) :
    contentOf names (fields ++ rest) = contentOf names rest := by
  induction fields with
  | nil => rfl
  | cons e fields ih =>
    rw [List.forall_mem_cons] at h
    rw [List.cons_append, contentOf_cons_of_mem h.1 e.2, ih h.2]

/-- Of entries in the midst of fields, just the ones under other names are kept, as they are. -/
theorem others_shown {names : List String} {before es after : List (String × Value)}
    (hbefore : ∀ e ∈ before, e.1 ∈ names) (hes : ∀ e ∈ es, e.1 ∉ names)
    (hafter : ∀ e ∈ after, e.1 ∈ names) (htagFree : ∀ e ∈ es, e.2.isTagFree = true) :
    (shown ν (before ++ es ++ after)).others names = .ok es := by
  -- what is written of the fields stands under names of fields
  have hpass : ∀ {fields : List (String × Value)}, (∀ e ∈ fields, e.1 ∈ names) →
      ∀ e ∈ fields.map fun e => (e.1, (Shows.of e.2 : ν)), e.1 ∈ names :=
    fun hfields => List.forall_mem_map.2 hfields
  change contentOf names ((before ++ es ++ after).map fun e => (e.1, Shows.of e.2)) = .ok es
  rw [List.append_assoc, List.map_append, contentOf_append (hpass hbefore)]
  induction es with
  | nil =>
    rw [List.nil_append, ← List.append_nil (List.map _ after), contentOf_append (hpass hafter)]
    rfl
  | cons e es ih =>
    rw [List.forall_mem_cons] at hes htagFree
    rw [List.cons_append, List.map_cons, contentOf_cons_of_notMem hes.1,
      Shows.content htagFree.1, ih hes.2 htagFree.2]
    rfl

end Fields

end SchedulerPolicy
