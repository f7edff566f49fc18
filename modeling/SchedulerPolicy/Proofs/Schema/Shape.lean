import SchedulerPolicy.Proofs.Schema.Slots

/-!
# The shape of a record

All records of the schema are read and written in the same way: each field on its own, in the order
of declaration. `RecordField` is one field, and there are four ways to keep one: it may be absent,
it has to be there, it has a default and is always written, or it has a default and is left out when
it holds the default. Each way comes with the two facts that make a field safe: a value that can be
read is sound, and a sound value is read from the slot that it is written to.

A record is a list of fields and its constructor (`readWith`, `Written`). Whatever is read is made
of sound values (`MadeOf`), and what is made of sound values comes back. What a type has to show for
this is that it is read and written like its list of fields (`Shape`), which is seen by unfolding.
When every value that a field can hold is sound (`RecordField.Total`), and that for all fields, the
values of the type come back whether they were read or not (`Shape.faithful`).

Two kinds of record have a part that is no field: unknown keys that are kept as they are
(`OpenShape`), and rules of branch protection, whose keys stand beside the keys of their node. The
second kind has a module of its own.
-/

namespace SchedulerPolicy

/-! ### Fields -/

/-- A field of a record. -/
structure RecordField where
  /-- What the record holds in the field. -/
  Held : Type
  name : String
  /-- The entries that the field is written as. -/
  entries : Held → List (String × Value)
  slot : Held → Option Value
  entries_eq : ∀ a, entries a = filled [(name, slot a)]
  read : {ν : Type} → [Readable ν] → Fields ν → Decoded Held
  /-- What is held comes back. -/
  Sound : Held → Prop
  tagFree : ∀ {a}, Sound a → ∀ v ∈ slot a, v.isTagFree = true
  read_eq : ∀ {ν : Type} [Readable ν] [Shows ν] {fs : Fields ν} {a : Held}, Sound a →
    fs.find? name = (slot a).map Shows.of → read fs = .ok a
  sound_of_read : ∀ {ν : Type} [Readable ν] [Untagged ν] {fs : Fields ν} {a : Held},
    read fs = .ok a → Sound a

namespace RecordField

variable (α : Type) [Schema α] [Settles α]

/-- A field that may be absent. -/
def optional (name : String) : RecordField where
  Held := Option α
  name := name
  entries := field? name
  slot a := a.map write
  entries_eq a := by cases a <;> rfl
  read fs := fs.optional name
  Sound a := ∀ x ∈ a, ReadsBack x
  tagFree h v hv := by
    obtain ⟨x, hx, rfl⟩ := Option.map_eq_some_iff.1 hv
    exact (h x hx).tagFree
  read_eq {ν _ _ fs a} h hfind := by
    unfold Fields.optional
    rw [hfind]
    -- present, it is read as what was written; absent, nothing is found
    cases a with
    | none => rfl
    | some x =>
      have hx := h x rfl
      exact bind_eq_of_ok (Shows.present? hx.ne_null)
        (bind_eq_of_ok (hx.read_write ν) rfl)
  sound_of_read {ν _ _ fs a} h := by
    unfold Fields.optional at h
    split at h
    · obtain rfl := Except.ok.inj h
      rintro x ⟨⟩
    · obtain ⟨y, -, hy⟩ := bind_eq_ok_iff.1 h
      -- what is found may be null, which counts as absent
      cases y with
      | none =>
        obtain rfl := Except.ok.inj hy
        rintro x ⟨⟩
      | some y =>
        obtain ⟨x, hx, ha⟩ := bind_eq_ok_iff.1 hy
        obtain rfl := Except.ok.inj ha
        rintro x' ⟨⟩
        exact Settles.settles hx

/-- A field that has to be there. -/
def required (name : String) : RecordField where
  Held := α
  name := name
  entries := field name
  slot a := some (write a)
  entries_eq _ := rfl
  read fs := fs.required name
  Sound := ReadsBack
  tagFree h v hv := by
    obtain rfl := Option.some.inj hv
    exact h.tagFree
  read_eq {ν _ _ fs a} h hfind := by
    unfold Fields.required
    rw [hfind]
    exact h.read_write ν
  sound_of_read {ν _ _ fs a} h := by
    unfold Fields.required at h
    split at h
    · cases h
    · exact Settles.settles h

/-- A field with a default that is written in any case. -/
def defaulted (name : String) (fallback : α) (hfallback : ReadsBack fallback) : RecordField where
  Held := α
  name := name
  entries := field name
  slot a := some (write a)
  entries_eq _ := rfl
  read fs := fs.getD name fallback
  Sound := ReadsBack
  tagFree h v hv := by
    obtain rfl := Option.some.inj hv
    exact h.tagFree
  read_eq {ν _ _ fs a} h hfind := by
    unfold Fields.getD
    rw [hfind]
    exact h.read_write ν
  sound_of_read {ν _ _ fs a} h := by
    unfold Fields.getD at h
    -- what is not found is the default, which comes back by assumption
    split at h
    · rwa [← Except.ok.inj h]
    · exact Settles.settles h

/-- A field that is left out when it holds its default. -/
def unlessDefault (name : String) (fallback : α) (isDefault : α → Bool)
    (hdefault : ∀ {a}, isDefault a = true ↔ a = fallback) : RecordField where
  Held := α
  name := name
  entries a := fieldUnless name (isDefault a) a
  slot a := if isDefault a then none else some (write a)
  entries_eq a := by
    unfold fieldUnless
    cases isDefault a <;> rfl
  read fs := fs.getD name fallback
  Sound a := isDefault a = false → ReadsBack a
  tagFree {a} h v hv := by
    cases ha : isDefault a with
    | true =>
      rw [ha] at hv
      cases hv
    | false =>
      rw [ha] at hv
      obtain rfl := Option.some.inj hv
      exact (h ha).tagFree
  read_eq {ν _ _ fs a} h hfind := by
    unfold Fields.getD
    cases ha : isDefault a with
    | true =>
      -- what is left out is the default, and the default is what is read in its place
      rw [hfind, ha, hdefault.1 ha]
      rfl
    | false =>
      rw [hfind, ha]
      exact (h ha).read_write ν
  sound_of_read {ν _ _ fs a} h hkept := by
    unfold Fields.getD at h
    split at h
    · -- the default is not written, so nothing is asked of it
      rw [hdefault.2 (Except.ok.inj h).symm] at hkept
      cases hkept
    · exact Settles.settles h

/-- A field of which everything comes back that it can hold. -/
class Total (f : RecordField) : Prop where
  sound : ∀ a : f.Held, f.Sound a

section Total

variable {α} [Faithful α] {name : String}

instance : (optional α name).Total := ⟨fun _ _ _ => Faithful.readsBack _⟩

instance : (required α name).Total := ⟨fun _ => Faithful.readsBack _⟩

end Total

/-- Every field of a list is total. -/
class AllTotal (fields : List RecordField) : Prop where
  total : ∀ f ∈ fields, f.Total

instance : AllTotal [] := ⟨List.forall_mem_nil _⟩

instance {f : RecordField} {fields : List RecordField} [f.Total] [AllTotal fields] :
    AllTotal (f :: fields) :=
  ⟨List.forall_mem_cons.2 ⟨‹f.Total›, AllTotal.total⟩⟩

end RecordField

/-! ### Records -/

/-- The type of a constructor that takes what the fields hold. -/
def Curried (ρ : Type) : List RecordField → Type
  | [] => ρ
  | f :: fields => f.Held → Curried ρ fields

/-- Reads the fields in order, and goes on with what is made of them. -/
def readWith {ρ σ ν : Type} [Readable ν] :
    (fields : List RecordField) → Curried ρ fields → Fields ν → (ρ → Decoded σ) → Decoded σ
  | [], r, _, next => next r
  | f :: fields, make, fs, next => f.read fs >>= fun a => readWith fields (make a) fs next

/-- `P` holds of whatever is made, with the entries that its fields are written as. -/
def Written {ρ : Type} (P : ρ → List (String × Value) → Prop) :
    (fields : List RecordField) → Curried ρ fields → List (String × Value) → Prop
  | [], r, es => P r es
  | f :: fields, make, es => ∀ a : f.Held, Written P fields (make a) (es ++ f.entries a)

/-- Something is made of sound values, which are written to slots. -/
inductive MadeOf {ρ : Type} : (fields : List RecordField) → Curried ρ fields → ρ → List Slot → Prop
  | nil (r : ρ) : MadeOf [] r r []
  | cons {f : RecordField} {fields : List RecordField} {make : Curried ρ (f :: fields)} {r : ρ}
      {slots : List Slot} (a : f.Held) (ha : f.Sound a) (h : MadeOf fields (make a) r slots) :
      MadeOf (f :: fields) make r ((f.name, f.slot a) :: slots)

/-- Something is made of what the fields hold. -/
def Makes {ρ : Type} : (fields : List RecordField) → Curried ρ fields → ρ → Prop
  | [], made, r => made = r
  | f :: fields, make, r => ∃ a : f.Held, Makes fields (make a) r

namespace MadeOf

variable {ρ σ : Type} {fields : List RecordField} {make : Curried ρ fields} {r : ρ}
  {slots : List Slot}

theorem names_eq (h : MadeOf fields make r slots) :
    slots.map Prod.fst = fields.map (·.name) := by
  induction h with
  | nil r => rfl
  | cons a ha h ih => rw [List.map_cons, List.map_cons, ih]

theorem fst_mem_names (h : MadeOf fields make r slots) :
    ∀ e ∈ filled slots, e.1 ∈ fields.map (·.name) := by
  intro e he
  rw [← h.names_eq]
  exact List.mem_map_of_mem (mem_filled.1 he)

theorem tagFree (h : MadeOf fields make r slots) : ∀ e ∈ filled slots, e.2.isTagFree = true := by
  induction h with
  | nil r => exact List.forall_mem_nil _
  | cons a ha h ih =>
    intro e he
    rcases List.mem_cons.1 (mem_filled.1 he) with heq | hmem
    · exact RecordField.tagFree _ ha e.2 (Prod.mk.inj heq).2.symm
    · exact ih e (mem_filled.2 hmem)

/-- Where all fields are total, whatever is made is made of sound values. -/
theorem exists_of_makes [RecordField.AllTotal fields] (h : Makes fields make r) :
    ∃ slots, MadeOf fields make r slots := by
  have htotal : ∀ f ∈ fields, f.Total := RecordField.AllTotal.total
  induction fields with
  | nil =>
    obtain rfl : make = r := h
    exact ⟨_, .nil _⟩
  | cons f fields ih =>
    rw [List.forall_mem_cons] at htotal
    obtain ⟨a, ha⟩ := h
    obtain ⟨slots, hmade⟩ := ih ha htotal.2
    exact ⟨_, .cons a (htotal.1.sound a) hmade⟩

/-- What is read is made of sound values. -/
theorem of_readWith {ν : Type} [Readable ν] [Untagged ν] {fs : Fields ν} {next : ρ → Decoded σ}
    {b : σ} (h : readWith fields make fs next = .ok b) :
    ∃ r slots, MadeOf fields make r slots ∧ next r = .ok b := by
  -- the fields are read one after the other, so one field is split off at a time
  induction fields with
  | nil => exact ⟨make, [], .nil make, h⟩
  | cons f fields ih =>
    obtain ⟨a, ha, hrest⟩ := bind_eq_ok_iff.1 h
    obtain ⟨r, slots, hmade, hnext⟩ := ih hrest
    have hsound : f.Sound a := f.sound_of_read ha
    exact ⟨r, _, .cons a hsound hmade, hnext⟩

/-- What is made of sound values is read from their slots. -/
theorem readWith_eq {ν : Type} [Readable ν] [Shows ν] (h : MadeOf fields make r slots)
    {fs : Fields ν} (hfind : ∀ s ∈ slots, fs.find? s.1 = s.2.map Shows.of)
    (next : ρ → Decoded σ) : readWith fields make fs next = next r := by
  induction h with
  | nil r => rfl
  | cons a ha h ih =>
    rw [List.forall_mem_cons] at hfind
    have hfield := RecordField.read_eq _ ha hfind.1
    exact bind_eq_of_ok hfield (ih hfind.2)

/-- What is made of values is written as the slots that are full. -/
theorem written {P : ρ → List (String × Value) → Prop} {es : List (String × Value)}
    (h : MadeOf fields make r slots) (hwritten : Written P fields make es) :
    P r (es ++ filled slots) := by
  induction h generalizing es with
  | nil r =>
    change P r (es ++ [])
    rw [List.append_nil]
    exact hwritten
  | @cons f fields make r slots a ha h ih =>
    -- the entries of the first field are the slot in front
    have hslot : es ++ filled ((f.name, f.slot a) :: slots) =
        (es ++ f.entries a) ++ filled slots := by
      rw [f.entries_eq, List.append_assoc, ← filled_append, List.singleton_append]
    rw [hslot]
    exact ih (hwritten a)

end MadeOf

/-! ### Records that consist of their fields -/

/-- A type is read and written like a list of fields. -/
structure Shape (ρ : Type) [Schema ρ] where
  fields : List RecordField
  make : Curried ρ fields
  nodup : (fields.map (·.name)).Nodup := by decide
  written : Written (fun r es => write r = .record es) fields make [] := by
    repeat intro _
    rfl
  read_eq : ∀ {ν : Type} [Readable ν] (x : ν), read x =
    Fields.ofReadable (fields.map (·.name)) x >>= fun fs => readWith fields make fs pure := by
    intro ν _ x
    rfl

namespace Shape

variable {ρ : Type} [Schema ρ]

section MadeOf

variable {shape : Shape ρ} {r : ρ} {slots : List Slot}

theorem nodup_slots (h : MadeOf shape.fields shape.make r slots) :
    (slots.map Prod.fst).Nodup := by
  rw [h.names_eq]
  exact shape.nodup

theorem readWith_shown (h : MadeOf shape.fields shape.make r slots) (ν : Type) [Readable ν]
    [Shows ν] : readWith shape.fields shape.make (.shown ν (filled slots)) pure = .ok r := by
  have hfind : ∀ s ∈ slots, (Fields.shown ν (filled slots)).find? s.1 = s.2.map Shows.of :=
    fun s hs => Fields.find?_filled (nodup_slots h) hs
  exact h.readWith_eq hfind pure

theorem readsBack (h : MadeOf shape.fields shape.make r slots) : ReadsBack r := by
  refine .of_record (h.written shape.written) h.tagFree fun ν _ _ => ?_
  rw [shape.read_eq]
  -- no name comes twice, so reading starts with the fields
  have hfields := Fields.ofReadable_shown (ν := ν) (nodup_filled (nodup_slots h))
  exact bind_eq_of_ok (hfields _) (readWith_shown h ν)

end MadeOf

/-- Everything comes back when all fields are total. -/
theorem faithful (shape : Shape ρ) [RecordField.AllTotal shape.fields]
    (h : ∀ r, Makes shape.fields shape.make r := by
      intro r
      cases r
      repeat apply Exists.intro
      rfl) : Faithful ρ where
  readsBack r := by
    obtain ⟨slots, hmade⟩ := MadeOf.exists_of_makes (h r)
    exact readsBack hmade

/-- What is read as a record comes back. -/
theorem settles (shape : Shape ρ) : Settles ρ where
  settles {ν _ _ x r} h := by
    rw [shape.read_eq] at h
    obtain ⟨fs, -, hfs⟩ := bind_eq_ok_iff.1 h
    obtain ⟨r', slots, hmade, hr⟩ := MadeOf.of_readWith hfs
    obtain rfl : r' = r := Except.ok.inj hr
    exact readsBack hmade

end Shape

/-! ### Records that keep unknown keys -/

/-- Keys that are no fields, with values that can be kept. -/
structure Carried (names : List String) (extra : Keyed Value) : Prop where
  unknown : ∀ e ∈ extra.entries, e.1 ∉ names
  tagFree : ∀ e ∈ extra.entries, e.2.isTagFree = true
  distinct : ∀ e ∈ extra.entries, e.2.hasDistinctKeys = true

namespace Fields

/-- What is kept of the entries of a record stands under other names and carries no tags. -/
theorem unknown_of_contentOf {ν : Type} [Readable ν] [Untagged ν] {names : List String}
    {es : List (String × ν)} {kept : List (String × Value)} (h : contentOf names es = .ok kept) :
    ∀ e ∈ kept, e.1 ∉ names ∧ e.2.isTagFree = true := by
  induction es generalizing kept with
  | nil =>
    obtain rfl : [] = kept := Except.ok.inj h
    exact List.forall_mem_nil _
  | cons e es ih =>
    by_cases hname : e.1 ∈ names
    · rw [contentOf_cons_of_mem hname] at h
      exact ih h
    · rw [contentOf_cons_of_notMem hname] at h
      obtain ⟨v, hv, hrest⟩ := bind_eq_ok_iff.1 h
      obtain ⟨others, hothers, hkept⟩ := bind_eq_ok_iff.1 hrest
      obtain rfl := Except.ok.inj hkept
      exact List.forall_mem_cons.2 ⟨⟨hname, Untagged.tagFree_of_content hv⟩, ih hothers⟩

/-- What is kept of a typed record are its entries under other names. -/
theorem contentOf_eq_filter {names : List String} {es kept : List (String × Value)}
    (h : contentOf names es = .ok kept) : kept = es.filter fun e => !names.contains e.1 := by
  induction es generalizing kept with
  | nil => exact (Except.ok.inj h).symm
  | cons e es ih =>
    by_cases hname : e.1 ∈ names
    · rw [contentOf_cons_of_mem hname] at h
      rw [List.filter_cons_of_neg (by simpa using hname)]
      exact ih h
    · rw [contentOf_cons_of_notMem hname] at h
      rw [List.filter_cons_of_pos (by simpa using hname)]
      obtain ⟨v, hv, hrest⟩ := bind_eq_ok_iff.1 h
      obtain ⟨others, hothers, hkept⟩ := bind_eq_ok_iff.1 hrest
      obtain rfl := Except.ok.inj hkept
      rw [ih hothers]
      -- a typed value is kept as it is when it has no tags, and not at all otherwise
      change (if e.2.isTagFree then .ok e.2 else .error _) = Except.ok v at hv
      split at hv
      · rw [← Except.ok.inj hv]
      · cases hv

section Extra

variable {ν : Type} [Readable ν] {names : List String} {fs : Fields ν} {extra : Keyed Value}

/-- Further keys are kept when no mapping in them has a key twice. -/
theorem exists_kept_of_extra (h : fs.extra names = .ok extra) :
    ∃ kept, contentOf names fs.entries = .ok kept ∧
      (∀ e ∈ kept, e.2.hasDistinctKeys = true) ∧ Keyed.ofList kept = extra := by
  unfold Fields.extra at h
  obtain ⟨kept, hkept, hrest⟩ := bind_eq_ok_iff.1 h
  split at hrest
  · next hdistinct => exact ⟨kept, hkept, List.all_eq_true.1 hdistinct, Except.ok.inj hrest⟩
  · cases hrest

/-- The further keys that are kept of a record are carried. -/
theorem carried_of_extra [Untagged ν] (h : fs.extra names = .ok extra) : Carried names extra := by
  obtain ⟨kept, hkept, hdistinct, rfl⟩ := exists_kept_of_extra h
  -- an entry of the map is one of those that were kept
  have hmem : ∀ e ∈ (Keyed.ofList kept).entries, e ∈ kept := fun e he =>
    Keyed.mem_of_get?_ofList (Keyed.get?_eq_some_iff.2 he)
  have hunknown := unknown_of_contentOf hkept
  exact {
    unknown := fun e he => (hunknown e (hmem e he)).1
    tagFree := fun e he => (hunknown e (hmem e he)).2
    distinct := fun e he => hdistinct e (hmem e he) }

end Extra

theorem extra_eq {names : List String} {fs : Fields Value} {extra : Keyed Value}
    (h : fs.extra names = .ok extra) :
    extra = Keyed.ofList (fs.entries.filter fun e => !names.contains e.1) := by
  obtain ⟨kept, hkept, -, rfl⟩ := exists_kept_of_extra h
  rw [contentOf_eq_filter hkept]

theorem entries_of_ofReadable {ν : Type} [Readable ν] {names : List String} {x : ν}
    {fs : Fields ν} (h : ofReadable names x = .ok fs) :
    Readable.entries names x = .ok fs.entries := by
  unfold ofReadable at h
  obtain ⟨es, hes, hfs⟩ := bind_eq_ok_iff.1 h
  split at hfs
  · cases hfs
  · rw [← Except.ok.inj hfs]
    exact hes

end Fields

/-- An entry that is kept is found as before. -/
theorem lookup_filter {β : Type} {es : List (String × β)} {key : String} {p : String × β → Bool}
    (h : ∀ e ∈ es, e.1 = key → p e = true) : (es.filter p).lookup key = es.lookup key := by
  induction es with
  | nil => rfl
  | cons e es ih =>
    rw [List.forall_mem_cons] at h
    by_cases hkey : e.1 = key
    · rw [List.filter_cons_of_pos (h.1 hkey), List.lookup_cons, List.lookup_cons, hkey,
        beq_self_eq_true]
    · have hbeq : (key == e.1) = false := beq_false_of_ne (Ne.symm hkey)
      have hskip : (e :: es).lookup key = es.lookup key := by rw [List.lookup_cons, hbeq]
      rw [hskip, ← ih h.2, List.filter_cons]
      split
      · rw [List.lookup_cons, hbeq]
      · rfl

theorem Value.get?_record (es : List (String × Value)) (key : String) :
    (Value.record es).get? key = es.lookup key := by
  change ((es.map fun e => (Value.string e.1, e.2)).find? fun e => e.1 == .string key).map _ = _
  induction es with
  | nil => rfl
  | cons e es ih =>
    have hagree : (Value.string e.1 == Value.string key) = (key == e.1) := by
      change (e.1 == key) = (key == e.1)
      exact Bool.beq_comm
    rw [List.map_cons, List.find?_cons, List.lookup_cons, ← ih]
    dsimp only
    rw [hagree]
    cases key == e.1 <;> rfl

/-- A type is read and written like a list of fields, with further keys that are kept. -/
structure OpenShape (ρ : Type) [Schema ρ] where
  fields : List RecordField
  make : Curried (Keyed Value → ρ) fields
  nodup : (fields.map (·.name)).Nodup := by decide
  written : Written (fun make es => ∀ extra, write (make extra) = .record (es ++ extra.entries))
    fields make [] := by
    repeat intro _
    rfl
  read_eq : ∀ {ν : Type} [Readable ν] (x : ν), read x =
    Fields.ofReadable (fields.map (·.name)) x >>= fun fs =>
      readWith fields make fs fun make =>
        fs.extra (fields.map (·.name)) >>= fun extra => pure (make extra) := by
    intro ν _ x
    rfl

namespace OpenShape

variable {ρ : Type} [Schema ρ]

/-- The names of the fields. -/
def names (shape : OpenShape ρ) : List String := shape.fields.map (·.name)

variable {shape : OpenShape ρ} {make : Keyed Value → ρ} {slots : List Slot} {extra : Keyed Value}

/-- Fields and further keys are all under different names. -/
theorem nodup_slots (h : MadeOf shape.fields shape.make make slots)
    (hextra : Carried shape.names extra) :
    ((slots ++ full extra.entries).map Prod.fst).Nodup := by
  rw [List.map_append, map_fst_full, h.names_eq, List.nodup_append]
  refine ⟨shape.nodup, extra.nodup_keys, ?_⟩
  rintro name hname name' hname' rfl
  obtain ⟨e, he, rfl⟩ := List.mem_map.1 hname'
  exact hextra.unknown e he hname

theorem written_eq (h : MadeOf shape.fields shape.make make slots) (extra : Keyed Value) :
    write (make extra) = .record (filled (slots ++ full extra.entries)) := by
  rw [filled_append, filled_full]
  exact h.written shape.written extra

theorem readsBack (h : MadeOf shape.fields shape.make make slots)
    (hextra : Carried shape.names extra) : ReadsBack (make extra) := by
  have hnodup := nodup_slots h hextra
  have htagFree : ∀ e ∈ filled (slots ++ full extra.entries), e.2.isTagFree = true := by
    rw [filled_append, filled_full]
    exact List.forall_mem_append.2 ⟨h.tagFree, hextra.tagFree⟩
  -- the entries under other names are just the further keys
  have hread : ∀ (ν : Type) [Readable ν] [Shows ν],
      (Fields.shown ν (filled (slots ++ full extra.entries))).extra shape.names = .ok extra := by
    intro ν _ _
    have hothers := Fields.others_shown (ν := ν) h.fst_mem_names hextra.unknown
      (List.forall_mem_nil _) hextra.tagFree
    rw [List.append_nil] at hothers
    rw [filled_append, filled_full]
    refine bind_eq_of_ok hothers ?_
    rw [if_pos (List.all_eq_true.2 hextra.distinct), Keyed.ofList_entries]
    rfl
  refine .of_record (written_eq h extra) htagFree fun ν _ _ => ?_
  -- the record is opened, the fields are found in their slots, and then the others are kept
  rw [shape.read_eq]
  refine bind_eq_of_ok (Fields.ofReadable_shown (nodup_filled hnodup) _) ?_
  rw [h.readWith_eq fun s hs => Fields.find?_filled hnodup (List.mem_append_left _ hs)]
  exact bind_eq_of_ok (hread ν) rfl

/-- What is read as a record comes back. -/
theorem settles (shape : OpenShape ρ) : Settles ρ where
  settles {ν _ _ x r} h := by
    rw [shape.read_eq] at h
    obtain ⟨fs, -, hfs⟩ := bind_eq_ok_iff.1 h
    obtain ⟨make, slots, hmade, hrest⟩ := MadeOf.of_readWith hfs
    obtain ⟨extra, hextra, hr⟩ := bind_eq_ok_iff.1 hrest
    obtain rfl := Except.ok.inj hr
    exact readsBack hmade (Fields.carried_of_extra hextra)

/-- **Unknown keys survive.** When a value is read and written again, what stands under a key that
is no field is what stood there, null included; of several entries under the key, the last. -/
theorem get?_write_of_read (shape : OpenShape ρ) {x : Value} {r : ρ} (h : read x = .ok r) :
    ∃ es, Readable.entries shape.names x = .ok es ∧
      ∀ key ∉ shape.names, (write r).get? key = es.reverse.lookup key := by
  rw [shape.read_eq] at h
  obtain ⟨fs, hfs, hfields⟩ := bind_eq_ok_iff.1 h
  obtain ⟨make, slots, hmade, hrest⟩ := MadeOf.of_readWith hfields
  obtain ⟨extra, hextra, hr⟩ := bind_eq_ok_iff.1 hrest
  obtain rfl := Except.ok.inj hr
  refine ⟨fs.entries, Fields.entries_of_ofReadable hfs, fun key hkey => ?_⟩
  -- no field is written under the key
  have hnone : (filled slots).lookup key = none := by
    refine List.lookup_eq_none_iff.2 fun e he => bne_iff_ne.2 fun heq => hkey ?_
    rw [heq]
    exact hmade.fst_mem_names e he
  have hother : ∀ e ∈ fs.entries.reverse, e.1 = key → (!shape.names.contains e.1) = true := by
    rintro e - rfl
    simpa using hkey
  calc (write (make extra)).get? key
      = (filled slots ++ extra.entries).lookup key := by
        rw [written_eq hmade, Value.get?_record, filled_append, filled_full]
    _ = extra.get? key := by rw [List.lookup_append, hnone, Option.none_or]; rfl
    _ = (fs.entries.filter fun e => !shape.names.contains e.1).reverse.lookup key := by
        rw [Fields.extra_eq hextra, Keyed.get?_ofList]
        rfl
    _ = fs.entries.reverse.lookup key := by rw [← List.filter_reverse, lookup_filter hother]

end OpenShape

end SchedulerPolicy
