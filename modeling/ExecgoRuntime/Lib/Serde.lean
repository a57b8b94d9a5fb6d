import ExecgoRuntime.Lib.Json

/-!
Typed values as JSON documents, in the manner of serde's derived code.
A codec carries the proof that what it writes is read back, so a codec that
loses a value cannot be built. A record is declared field by field, in the
order of its fields. Each field says whether it is left out of the text for
some values and what a missing member stands for, and owes that the two agree.
The positional form of a record, which is read but never written, is left out.
-/
namespace Serde

open Json

variable {largest : ℕ} {α β σ : Type}

/-- Integers are at most `largest`; what is written nests at most `height` deep. -/
structure Codec (largest : ℕ) (α : Type) where
  encode : α → Value
  decode : Value → Option α
  /-- The members of the Lean type that the coded type has. -/
  Valid : α → Prop
  height : ℕ
  decode_encode : ∀ a, Valid a → decode (encode a) = some a
  within : ∀ a, Valid a → (encode a).Within largest height
  ne_null : ∀ a, encode a ≠ .null

namespace Codec

def bool : Codec largest Bool where
  encode := .bool
  decode
    | .bool value => some value
    | _ => none
  Valid _ := True
  height := 0
  decode_encode _ _ := rfl
  within _ _ := trivial
  ne_null _ := by simp

def string : Codec largest String where
  encode := .string
  decode
    | .string value => some value
    | _ => none
  Valid _ := True
  height := 0
  decode_encode _ _ := rfl
  within _ _ := trivial
  ne_null _ := by simp

/-- An unsigned integer. A number out of its range is an error. -/
def word : Codec largest ℕ where
  encode := .number
  decode
    | .number value => if value ≤ largest then some value else none
    | _ => none
  Valid n := n ≤ largest
  height := 0
  decode_encode _ h := if_pos h
  within _ h := h
  ne_null _ := by simp

/-- An unsigned integer of a smaller type. -/
def below (bound : ℕ) (h : bound ≤ largest) : Codec largest ℕ where
  encode := .number
  decode
    | .number value => if value < bound then some value else none
    | _ => none
  Valid n := n < bound
  height := 0
  decode_encode _ h := if_pos h
  within _ hn := Nat.le_trans (Nat.le_of_lt hn) h
  ne_null _ := by simp

/-- The variants of an enumeration are written by name. -/
def variants (name : α → String) (all : List α)
    (found : ∀ a, all.find? (fun b => name b == name a) = some a) : Codec largest α where
  encode a := .string (name a)
  decode
    | .string value => all.find? (fun b => name b == value)
    | _ => none
  Valid _ := True
  height := 0
  decode_encode a _ := found a
  within _ _ := trivial
  ne_null _ := by simp

/-- Values that are written as values of another type. -/
def via (codec : Codec largest α) (write : β → α) (read : α → Option β) (Valid : β → Prop)
    (agree : ∀ b, Valid b → codec.Valid (write b) ∧ read (write b) = some b) :
    Codec largest β where
  encode b := codec.encode (write b)
  decode v := (codec.decode v).bind read
  Valid := Valid
  height := codec.height
  decode_encode b h := by
    rw [codec.decode_encode _ (agree b h).1, Option.bind_some, (agree b h).2]
  within b h := codec.within _ (agree b h).1
  ne_null b := codec.ne_null (write b)

theorem mapM_encode (codec : Codec largest α) {items : List α}
    (h : ∀ item ∈ items, codec.Valid item) :
    (items.map codec.encode).mapM codec.decode = some items := by
  induction items with
  | nil => rfl
  | cons item items ih =>
    have hitem := codec.decode_encode item (h item List.mem_cons_self)
    have hitems := ih (fun i hi => h i (List.mem_cons_of_mem _ hi))
    simp [hitem, hitems]

def list (codec : Codec largest α) : Codec largest (List α) where
  encode items := .array (items.map codec.encode)
  decode
    | .array items => items.mapM codec.decode
    | _ => none
  Valid items := ∀ item ∈ items, codec.Valid item
  height := codec.height + 1
  decode_encode _ h := codec.mapM_encode h
  within items h := by
    intro v hv
    obtain ⟨item, hitem, rfl⟩ := List.mem_map.mp hv
    exact codec.within item (h item hitem)
  ne_null _ := by simp

/-- Inserting a key that is there replaces its value. -/
def insertEntry (entries : List (String × α)) (entry : String × α) : List (String × α) :=
  entries.filter (fun e => e.1 != entry.1) ++ [entry]

theorem foldl_insertEntry (done entries : List (String × α))
    (h : ((done ++ entries).map Prod.fst).Nodup) :
    entries.foldl insertEntry done = done ++ entries := by
  induction entries generalizing done with
  | nil => simp
  | cons entry entries ih =>
    have hnew : ∀ e ∈ done, e.1 ≠ entry.1 := by
      intro e he heq
      rw [List.map_append, List.nodup_append] at h
      exact h.2.2 e.1 (List.mem_map_of_mem he) entry.1 (by simp) heq
    have hinsert : insertEntry done entry = done ++ [entry] := by
      rw [insertEntry, List.filter_eq_self.mpr]
      simpa using hnew
    rw [List.foldl_cons, hinsert, ih _ (by simpa using h), List.append_assoc]
    rfl

def entry (codec : Codec largest α) (member : String × Value) : Option (String × α) :=
  (codec.decode member.2).map fun value => (member.1, value)

theorem mapM_entry (codec : Codec largest α) {entries : List (String × α)}
    (h : ∀ e ∈ entries, codec.Valid e.2) :
    (entries.map fun e => (e.1, codec.encode e.2)).mapM codec.entry = some entries := by
  induction entries with
  | nil => rfl
  | cons e entries ih =>
    have he := codec.decode_encode e.2 (h e List.mem_cons_self)
    have hentries := ih (fun d hd => h d (List.mem_cons_of_mem _ hd))
    simp [entry, he, hentries]

/-- A map from strings, in the order in which it is iterated. -/
def map (codec : Codec largest α) : Codec largest (List (String × α)) where
  encode entries := .object (entries.map fun e => (e.1, codec.encode e.2))
  decode
    | .object members => (members.mapM codec.entry).map (·.foldl insertEntry [])
    | _ => none
  Valid entries := (entries.map Prod.fst).Nodup ∧ ∀ e ∈ entries, codec.Valid e.2
  height := codec.height + 1
  decode_encode entries h := by
    simp [codec.mapM_entry h.2, foldl_insertEntry [] entries (by simpa using h.1)]
  within entries h := by
    intro member hmember
    obtain ⟨e, he, rfl⟩ := List.mem_map.mp hmember
    exact codec.within e.2 (h.2 e he)
  ne_null _ := by simp

end Codec

/-- The member of a name, if any. A name that comes twice is an error. -/
def member (name : String) (members : List (String × Value)) : Option (Option Value) :=
  match members.filter (fun m => m.1 == name) with
  | [] => some none
  | [m] => some (some m.2)
  | _ => none

/-- The members of a record's text: a field without a value is left out. -/
def written (fields : List (String × Option Value)) : List (String × Value) :=
  fields.filterMap fun field => field.2.map fun value => (field.1, value)

theorem written_cons (field : String × Option Value) (fields : List (String × Option Value)) :
    written (field :: fields) =
      (field.2.map fun value => (field.1, value)).toList ++ written fields := by
  obtain ⟨name, value⟩ := field
  cases value <;> rfl

theorem mem_written {fields : List (String × Option Value)} {m : String × Value}
    (h : m ∈ written fields) : (m.1, some m.2) ∈ fields := by
  obtain ⟨field, hfield, hm⟩ := List.mem_filterMap.mp h
  obtain ⟨value, hvalue, rfl⟩ := Option.map_eq_some_iff.mp hm
  simpa [← hvalue] using hfield

theorem filter_written_of_notMem {name : String} {fields : List (String × Option Value)}
    (h : name ∉ fields.map Prod.fst) : (written fields).filter (fun m => m.1 == name) = [] := by
  rw [List.filter_eq_nil_iff]
  intro m hm heq
  exact h (List.mem_map.mpr ⟨_, mem_written hm, by simpa using heq⟩)

/-- Fields of different names are found again. -/
theorem member_written {fields : List (String × Option Value)}
    (hnodup : (fields.map Prod.fst).Nodup) {field : String × Option Value}
    (h : field ∈ fields) : member field.1 (written fields) = some field.2 := by
  have hfilter : (written fields).filter (fun m => m.1 == field.1) =
      (field.2.map fun value => (field.1, value)).toList := by
    induction fields with
    | nil => cases h
    | cons first fields ih =>
      obtain ⟨hfirst, hnodup⟩ := List.nodup_cons.mp hnodup
      rw [written_cons, List.filter_append]
      rcases List.mem_cons.mp h with rfl | hmem
      · rw [filter_written_of_notMem hfirst]
        cases field.2 <;> simp
      · have hne : first.1 ≠ field.1 :=
          fun heq => hfirst (heq ▸ List.mem_map_of_mem hmem)
        rw [ih hnodup hmem]
        cases first.2 <;> simp [hne]
  rw [member, hfilter]
  cases field.2 <;> rfl

/-- The attributes of a field: for which values it is left out, and what is read
when it is missing. -/
structure Slot (largest : ℕ) (β : Type) where
  emit : β → Option Value
  read : Option Value → Option β
  Valid : β → Prop
  height : ℕ
  read_emit : ∀ b, Valid b → read (emit b) = some b
  within : ∀ b, Valid b → ∀ v ∈ emit b, v.Within largest height

namespace Slot

/-- `skip_serializing_if` and `default`: what is left out must be the default. -/
def skipped (skip : β → Bool) (default : Option β) (codec : Codec largest β)
    (agree : ∀ b, skip b = true → default = some b) : Slot largest β where
  emit b := if skip b then none else some (codec.encode b)
  read
    | none => default
    | some value => codec.decode value
  Valid := codec.Valid
  height := codec.height
  read_emit b h := by
    by_cases hskip : skip b = true
    · simp [hskip, agree b hskip]
    · simp [hskip, codec.decode_encode b h]
  within b h v hv := by
    by_cases hskip : skip b = true
    · simp [hskip] at hv
    · simp only [hskip] at hv
      cases hv
      exact codec.within b h

/-- No attribute. -/
def required (codec : Codec largest β) : Slot largest β :=
  skipped (fun _ => false) none codec (by simp)

/-- `default` alone. -/
def defaulted (default : β) (codec : Codec largest β) : Slot largest β :=
  skipped (fun _ => false) (some default) codec (by simp)

/-- A list that is left out when it is empty. -/
def omittedEmpty (codec : Codec largest (List β)) : Slot largest (List β) :=
  skipped List.isEmpty (some []) codec (by simp)

/-- An optional field that is left out when it is `None`. It reads `null` and a
missing member alike. -/
def optional (codec : Codec largest β) : Slot largest (Option β) where
  emit b := b.map codec.encode
  read
    | none | some .null => some none
    | some value => (codec.decode value).map some
  Valid b := ∀ value ∈ b, codec.Valid value
  height := codec.height
  read_emit b h := by
    cases b with
    | none => rfl
    | some value =>
      have hnull := codec.ne_null value
      simp [codec.decode_encode value (h value rfl)]
  within b h v hv := by
    obtain ⟨value, hvalue, rfl⟩ := Option.map_eq_some_iff.mp hv
    exact codec.within value (h value hvalue)

end Slot

/-- The fields declared so far of a record `σ`, and what is still missing to
build it: a function to the record of the fields to come. -/
structure Shape (largest : ℕ) (σ α : Type) where
  build : σ → α
  names : List String
  emit : σ → List (String × Option Value)
  read : List (String × Value) → Option α
  Valid : σ → Prop
  height : ℕ
  emit_names : ∀ s, (emit s).map Prod.fst = names
  read_emit : ∀ s members, Valid s → (∀ f ∈ emit s, member f.1 members = some f.2) →
    read members = some (build s)
  within : ∀ s, Valid s → ∀ f ∈ emit s, ∀ v ∈ f.2, v.Within largest height

namespace Shape

/-- No field yet. -/
def start (make : α) : Shape largest σ α where
  build _ := make
  names := []
  emit _ := []
  read _ := some make
  Valid _ := True
  height := 0
  emit_names _ := rfl
  read_emit _ _ _ _ := rfl
  within _ _ _ h := by cases h

/-- The next field. -/
def field (shape : Shape largest σ (β → α)) (name : String) (get : σ → β) (slot : Slot largest β) :
    Shape largest σ α where
  build s := shape.build s (get s)
  names := shape.names ++ [name]
  emit s := shape.emit s ++ [(name, slot.emit (get s))]
  read members := do
    let make ← shape.read members
    let value ← slot.read (← member name members)
    some (make value)
  Valid s := shape.Valid s ∧ slot.Valid (get s)
  height := max shape.height slot.height
  emit_names s := by simp [shape.emit_names]
  read_emit s members h hmembers := by
    have hbefore := shape.read_emit s members h.1
      (fun f hf => hmembers f (List.mem_append_left _ hf))
    have hthis := hmembers (name, slot.emit (get s)) (by simp)
    simp [hbefore, hthis, slot.read_emit _ h.2]
  within s h f hf v hv := by
    rcases List.mem_append.mp hf with hbefore | hthis
    · exact (shape.within s h.1 f hbefore v hv).mono (Nat.le_max_left _ _)
    · obtain rfl := List.mem_singleton.mp hthis
      exact (slot.within _ h.2 v hv).mono (Nat.le_max_right _ _)

theorem names_start (make : α) : (start make : Shape largest σ α).names = [] := rfl

theorem names_field (shape : Shape largest σ (β → α)) (name : String) (get : σ → β)
    (slot : Slot largest β) : (shape.field name get slot).names = shape.names ++ [name] := rfl

/-- A record is as high as its fields. -/
theorem height_field_le {shape : Shape largest σ (β → α)} {name : String} {get : σ → β}
    {slot : Slot largest β} {n : ℕ} (h : shape.height ≤ n) (hslot : slot.height ≤ n) :
    (shape.field name get slot).height ≤ n := max_le h hslot

/-- A record that is read has the fields before this one and a value for it. -/
theorem of_read_field {shape : Shape largest σ (β → α)} {name : String} {get : σ → β}
    {slot : Slot largest β} {members : List (String × Value)} {a : α}
    (h : (shape.field name get slot).read members = some a) :
    ∃ make m value, shape.read members = some make ∧ member name members = some m ∧
      slot.read m = some value ∧ a = make value := by
  simp only [field, Option.bind_eq_bind, Option.bind_eq_some_iff] at h
  obtain ⟨make, hmake, m, hm, value, hvalue, heq⟩ := h
  exact ⟨make, m, value, hmake, hm, hvalue, (Option.some.inj heq).symm⟩

/-- A record whose fields are all declared, under different names. Members of
other names are ignored. -/
def codec (shape : Shape largest σ σ) (nodup : shape.names.Nodup)
    (complete : ∀ s, shape.build s = s) : Codec largest σ where
  encode s := .object (written (shape.emit s))
  decode
    | .object members => shape.read members
    | _ => none
  Valid := shape.Valid
  height := shape.height + 1
  decode_encode s h := by
    have hnames : ((shape.emit s).map Prod.fst).Nodup := by rwa [shape.emit_names]
    have hread := shape.read_emit s _ h (fun f hf => member_written hnames hf)
    simpa [complete] using hread
  within s h m hm := shape.within s h _ (mem_written hm) m.2 rfl
  ne_null _ := by simp

end Shape

section Valid

@[simp]
theorem valid_bool (b : Bool) : (Codec.bool : Codec largest Bool).Valid b ↔ True := Iff.rfl

@[simp]
theorem valid_string (text : String) : (Codec.string : Codec largest String).Valid text ↔ True :=
  Iff.rfl

@[simp]
theorem valid_word (n : ℕ) : (Codec.word : Codec largest ℕ).Valid n ↔ n ≤ largest := Iff.rfl

@[simp]
theorem valid_variants (name : α → String) (all : List α)
    (found : ∀ a, all.find? (fun b => name b == name a) = some a) (a : α) :
    (Codec.variants name all found : Codec largest α).Valid a ↔ True := Iff.rfl

@[simp]
theorem valid_list (codec : Codec largest α) (items : List α) :
    codec.list.Valid items ↔ ∀ item ∈ items, codec.Valid item := Iff.rfl

@[simp]
theorem valid_map (codec : Codec largest α) (entries : List (String × α)) :
    codec.map.Valid entries ↔
      (entries.map Prod.fst).Nodup ∧ ∀ e ∈ entries, codec.Valid e.2 := Iff.rfl

variable (codec : Codec largest β) (b : β)

@[simp]
theorem valid_required : (Slot.required codec).Valid b ↔ codec.Valid b := Iff.rfl

@[simp]
theorem valid_defaulted (default : β) : (Slot.defaulted default codec).Valid b ↔ codec.Valid b :=
  Iff.rfl

@[simp]
theorem valid_omittedEmpty (codec : Codec largest (List β)) (items : List β) :
    (Slot.omittedEmpty codec).Valid items ↔ codec.Valid items := Iff.rfl

@[simp]
theorem valid_optional (b : Option β) :
    (Slot.optional codec).Valid b ↔ ∀ value ∈ b, codec.Valid value := Iff.rfl

@[simp]
theorem valid_start (make : α) (s : σ) : (Shape.start make : Shape largest σ α).Valid s ↔ True :=
  Iff.rfl

@[simp]
theorem valid_field (shape : Shape largest σ (β → α)) (name : String) (get : σ → β)
    (slot : Slot largest β) (s : σ) :
    (shape.field name get slot).Valid s ↔ shape.Valid s ∧ slot.Valid (get s) := Iff.rfl

@[simp]
theorem valid_codec (shape : Shape largest σ σ) (nodup : shape.names.Nodup)
    (complete : ∀ s, shape.build s = s) (s : σ) :
    (shape.codec nodup complete).Valid s ↔ shape.Valid s := Iff.rfl

end Valid

end Serde
