import Mathlib.Algebra.Order.Group.Nat
import Mathlib.Data.List.Basic

/-!
JSON documents and their compact text.
A document is a tree; an object keeps its members in the order of the text, so
a reader of the tree sees every member the text has. Natural numbers are kept by
value; a number with a sign, a fraction or an exponent is kept by its literal, and
no client of this library writes one. The reader of texts follows the nesting of
arrays and objects down to a given depth. On the text of a document that is not
nested deeper it returns the document.
-/
namespace Json

inductive Value
  | null
  | bool (value : Bool)
  | number (value : ℕ)
  | real (literal : String)
  | string (value : String)
  | array (items : List Value)
  | object (members : List (String × Value))

/-- Every number of the document is a natural number of at most `largest` and at
most `depth` arrays and objects are nested in each other. -/
def Value.Within (largest : ℕ) : ℕ → Value → Prop
  | _, .null | _, .bool _ | _, .string _ => True
  | _, .number value => value ≤ largest
  | _, .real _ => False
  | 0, .array _ | 0, .object _ => False
  | depth + 1, .array items => ∀ item ∈ items, item.Within largest depth
  | depth + 1, .object members => ∀ member ∈ members, member.2.Within largest depth

theorem Value.Within.mono {largest d e : ℕ} (hde : d ≤ e) {v : Value}
    (h : v.Within largest d) : v.Within largest e := by
  induction d generalizing e v with
  | zero =>
    cases v with
    | array items => exact h.elim
    | object members => exact h.elim
    | number value => cases e <;> simpa [Within] using h
    | real literal => exact h.elim
    | _ => cases e <;> trivial
  | succ d ih =>
    obtain ⟨e, rfl⟩ : ∃ f, e = f + 1 := ⟨e - 1, by omega⟩
    have hle : d ≤ e := by omega
    cases v with
    | array items => exact fun item hitem => ih hle (h item hitem)
    | object members => exact fun member hmember => ih hle (h member hmember)
    | number value => simpa [Within] using h
    | real literal => exact h.elim
    | _ => trivial

/-- The characters below the space have a code of two hexadecimal digits. -/
def escape (c : Char) : List Char :=
  if c = '"' then ['\\', '"']
  else if c = '\\' then ['\\', '\\']
  else if c = '\n' then ['\\', 'n']
  else if c = '\r' then ['\\', 'r']
  else if c = '\t' then ['\\', 't']
  else if c = '\x08' then ['\\', 'b']
  else if c = '\x0c' then ['\\', 'f']
  else if c.toNat < 32 then ['\\', 'u', '0', '0', (c.toNat / 16).digitChar,
    (c.toNat % 16).digitChar]
  else [c]

def writeString (text : String) : List Char :=
  '"' :: text.toList.flatMap escape ++ ['"']

/-- The parts separated by commas. -/
def separated : List (List Char) → List Char
  | [] => []
  | part :: parts => part ++ parts.flatMap (',' :: ·)

mutual

def Value.write : Value → List Char
  | .null => ['n', 'u', 'l', 'l']
  | .bool true => ['t', 'r', 'u', 'e']
  | .bool false => ['f', 'a', 'l', 's', 'e']
  | .number value => Nat.toDigits 10 value
  | .real literal => literal.toList
  | .string value => writeString value
  | .array items => '[' :: separated (writeItems items) ++ [']']
  | .object members => '{' :: separated (writeMembers members) ++ ['}']

def writeItems : List Value → List (List Char)
  | [] => []
  | item :: items => item.write :: writeItems items

def writeMembers : List (String × Value) → List (List Char)
  | [] => []
  | (name, value) :: members => (writeString name ++ ':' :: value.write) :: writeMembers members

end

theorem writeItems_eq_map (items : List Value) : writeItems items = items.map Value.write := by
  induction items with
  | nil => rfl
  | cons item items ih => simp [writeItems, ih]

def writeMember (member : String × Value) : List Char :=
  writeString member.1 ++ ':' :: member.2.write

theorem writeMembers_eq_map (members : List (String × Value)) :
    writeMembers members = members.map writeMember := by
  induction members with
  | nil => rfl
  | cons member members ih => simp [writeMembers, writeMember, ih]

def hexValue (c : Char) : Option ℕ :=
  if '0' ≤ c ∧ c ≤ '9' then some (c.toNat - '0'.toNat)
  else if 'a' ≤ c ∧ c ≤ 'f' then some (c.toNat - 'a'.toNat + 10)
  else if 'A' ≤ c ∧ c ≤ 'F' then some (c.toNat - 'A'.toNat + 10)
  else none

def charOfCode (code : ℕ) : Option Char := if code.isValidChar then some (Char.ofNat code) else none

/-- What follows a backslash. Half of a surrogate pair is no character. -/
def readEscape : List Char → Option (Char × List Char)
  | '"' :: rest => some ('"', rest)
  | '\\' :: rest => some ('\\', rest)
  | '/' :: rest => some ('/', rest)
  | 'n' :: rest => some ('\n', rest)
  | 'r' :: rest => some ('\r', rest)
  | 't' :: rest => some ('\t', rest)
  | 'b' :: rest => some ('\x08', rest)
  | 'f' :: rest => some ('\x0c', rest)
  | 'u' :: a :: b :: c :: d :: rest => do
    let code := ((← hexValue a) * 16 + (← hexValue b)) * 16 + (← hexValue c)
    let char ← charOfCode (code * 16 + (← hexValue d))
    some (char, rest)
  | _ => none

/-- The characters up to the closing quote. -/
def readChars : ℕ → List Char → Option (List Char × List Char)
  | 0, _ | _, [] => none
  | fuel + 1, c :: rest =>
    if c = '"' then some ([], rest)
    else if c = '\\' then do
      let (char, rest) ← readEscape rest
      let (chars, rest) ← readChars fuel rest
      some (char :: chars, rest)
    else if c.toNat < 32 then none
    else do
      let (chars, rest) ← readChars fuel rest
      some (c :: chars, rest)

/-- The string whose opening quote has been read. -/
def readString (input : List Char) : Option (String × List Char) := do
  let (chars, rest) ← readChars (input.length + 1) input
  some (String.ofList chars, rest)

section Sequences

variable {α : Type} (readPart : List Char → Option (α × List Char)) (close : Char)

/-- Parts with a comma before each, up to the closing bracket. -/
def readTail : ℕ → List Char → Option (List α × List Char)
  | 0, _ | _, [] => none
  | fuel + 1, c :: rest =>
    if c = close then some ([], rest)
    else if c = ',' then do
      let (part, rest) ← readPart rest
      let (parts, rest) ← readTail fuel rest
      some (part :: parts, rest)
    else none

def readParts (input : List Char) : Option (List α × List Char) :=
  if input.head? = some close then some ([], input.tail)
  else readTail readPart close (input.length + 1) (',' :: input)

end Sequences

def readMember (readPart : List Char → Option (Value × List Char)) :
    List Char → Option ((String × Value) × List Char)
  | '"' :: input => do
    let (name, input) ← readString input
    match input with
    | ':' :: input =>
      let (value, rest) ← readPart input
      some ((name, value), rest)
    | _ => none
  | _ => none

def readNumber (input : List Char) : Option (Value × List Char) :=
  let digits := input.takeWhile Char.isDigit
  if digits = [] then none
  else some (.number (Nat.ofDigitChars 10 digits 0), input.dropWhile Char.isDigit)

/-- One value with at most `depth` arrays and objects around each other. -/
def readValue : ℕ → List Char → Option (Value × List Char)
  | _, 'n' :: 'u' :: 'l' :: 'l' :: rest => some (.null, rest)
  | _, 't' :: 'r' :: 'u' :: 'e' :: rest => some (.bool true, rest)
  | _, 'f' :: 'a' :: 'l' :: 's' :: 'e' :: rest => some (.bool false, rest)
  | _, '"' :: rest => do
    let (value, rest) ← readString rest
    some (.string value, rest)
  | depth + 1, '[' :: rest => do
    let (items, rest) ← readParts (readValue depth) ']' rest
    some (.array items, rest)
  | depth + 1, '{' :: rest => do
    let (members, rest) ← readParts (readMember (readValue depth)) '}' rest
    some (.object members, rest)
  | _, input => readNumber input

/-- A text with exactly one value. -/
def read (depth : ℕ) (text : String) : Option Value :=
  match readValue depth text.toList with
  | some (value, []) => some value
  | _ => none

theorem escape_ne_nil (c : Char) : escape c ≠ [] := by
  unfold escape
  split_ifs <;> simp

theorem length_le_flatMap {α : Type} {f : α → List Char} (hf : ∀ a, f a ≠ []) (parts : List α) :
    parts.length ≤ (parts.flatMap f).length := by
  induction parts with
  | nil => simp
  | cons part parts ih =>
    have hpos : 0 < (f part).length := List.length_pos_iff.mpr (hf part)
    simp only [List.flatMap_cons, List.length_append, List.length_cons]
    omega

theorem readEscape_control {c : Char} (hc : c.toNat < 32) (rest : List Char) :
    readEscape ('u' :: '0' :: '0' :: (c.toNat / 16).digitChar :: (c.toNat % 16).digitChar :: rest) =
      some (c, rest) := by
  have hcode : ∀ n < 32, (do
      let code := ((← hexValue '0') * 16 + (← hexValue '0')) * 16 +
        (← hexValue (n / 16).digitChar)
      charOfCode (code * 16 + (← hexValue (n % 16).digitChar))) = some (Char.ofNat n) := by
    decide
  have hchar := hcode c.toNat hc
  rw [Char.ofNat_toNat] at hchar
  simp only [readEscape]
  revert hchar
  cases hexValue '0' <;> cases hexValue (c.toNat / 16).digitChar <;>
    cases hexValue (c.toNat % 16).digitChar <;> simp
  intro hchar
  rw [hchar]
  rfl

/-- One character of a string is read back whatever follows it. -/
theorem readChars_escape (fuel : ℕ) (c : Char) (input : List Char) :
    readChars (fuel + 1) (escape c ++ input) =
      (readChars fuel input).map fun r => (c :: r.1, r.2) := by
  have hnext : ∀ r : Option (List Char × List Char),
      (r.bind fun r => some (c :: r.1, r.2)) = r.map fun r => (c :: r.1, r.2) := by
    intro r
    cases r <;> rfl
  unfold escape
  split_ifs with hquote hback hline hreturn htab hbackspace hfeed hcontrol
  any_goals
    subst c
    exact hnext _
  · simp only [List.cons_append, List.nil_append, readChars, readEscape_control hcontrol]
    exact hnext _
  · simp only [List.cons_append, List.nil_append, readChars, hquote, hback, hcontrol, if_false]
    exact hnext _

theorem readChars_flatMap (chars rest : List Char) {fuel : ℕ} (hfuel : chars.length < fuel) :
    readChars fuel (chars.flatMap escape ++ '"' :: rest) = some (chars, rest) := by
  obtain ⟨fuel, rfl⟩ : ∃ n, fuel = n + 1 := ⟨fuel - 1, by omega⟩
  induction chars generalizing fuel with
  | nil => simp [readChars]
  | cons c chars ih =>
    obtain ⟨fuel, rfl⟩ : ∃ n, fuel = n + 1 := ⟨fuel - 1, by simp at hfuel; omega⟩
    rw [List.flatMap_cons, List.append_assoc, readChars_escape]
    rw [ih fuel (by simpa using hfuel)]
    rfl

theorem readString_write (text : String) (rest : List Char) :
    readString (text.toList.flatMap escape ++ '"' :: rest) = some (text, rest) := by
  have hlength : text.toList.length < (text.toList.flatMap escape ++ '"' :: rest).length + 1 := by
    have hle := length_le_flatMap escape_ne_nil text.toList
    rw [List.length_append]
    omega
  rw [readString, readChars_flatMap _ rest hlength]
  simp

def Stops (rest : List Char) : Prop := ∀ c ∈ rest.head?, c.isDigit = false

section Sequences

variable {α : Type} {readPart : List Char → Option (α × List Char)} {close : Char}
  {write : α → List Char}

/-- Reading undoes writing of this part wherever a number could end. -/
def Reads (readPart : List Char → Option (α × List Char)) (write : α → List Char) (part : α) :
    Prop :=
  ∀ rest, Stops rest → readPart (write part ++ rest) = some (part, rest)

theorem readTail_flatMap (hclose : close.isDigit = false) (hcomma : close ≠ ',') (parts : List α)
    (hparts : ∀ part ∈ parts, Reads readPart write part) (rest : List Char) {fuel : ℕ}
    (hfuel : parts.length < fuel) :
    readTail readPart close fuel (parts.flatMap (fun part => ',' :: write part) ++ close :: rest) =
      some (parts, rest) := by
  obtain ⟨fuel, rfl⟩ : ∃ n, fuel = n + 1 := ⟨fuel - 1, by omega⟩
  induction parts generalizing fuel with
  | nil => simp [readTail]
  | cons part parts ih =>
    obtain ⟨fuel, rfl⟩ : ∃ n, fuel = n + 1 := ⟨fuel - 1, by simp at hfuel; omega⟩
    have hstops : Stops (parts.flatMap (fun part => ',' :: write part) ++ close :: rest) := by
      cases parts with
      | nil => simpa [Stops] using hclose
      | cons next parts => simp [Stops]
    have hpart := hparts part List.mem_cons_self _ hstops
    have hrest := ih (fun p hp => hparts p (List.mem_cons_of_mem _ hp)) fuel (by simpa using hfuel)
    rw [List.flatMap_cons, List.append_assoc]
    simp [readTail, Ne.symm hcomma, hpart, hrest]

theorem readParts_separated (hclose : close.isDigit = false) (hcomma : close ≠ ',')
    (parts : List α) (hparts : ∀ part ∈ parts, Reads readPart write part)
    (hhead : ∀ part ∈ parts, ∃ c tail, write part = c :: tail ∧ c ≠ close) (rest : List Char) :
    readParts readPart close (separated (parts.map write) ++ close :: rest) =
      some (parts, rest) := by
  cases parts with
  | nil => simp [separated, readParts]
  | cons part parts =>
    have htext : ',' :: (separated ((part :: parts).map write) ++ close :: rest) =
        (part :: parts).flatMap (fun part => ',' :: write part) ++ close :: rest := by
      simp [separated, List.flatMap_map]
    obtain ⟨c, tail, hwrite, hc⟩ := hhead part List.mem_cons_self
    have hopen : (separated ((part :: parts).map write) ++ close :: rest).head? ≠ some close := by
      simp [separated, hwrite, hc]
    rw [readParts, if_neg hopen, htext]
    apply readTail_flatMap hclose hcomma _ hparts
    have hlong := length_le_flatMap (f := fun part => ',' :: write part) (by simp) (part :: parts)
    have hsame := congrArg List.length htext
    have hrest : 0 < (close :: rest).length := by simp
    rw [List.length_cons, List.length_append] at hsame
    rw [List.length_append] at hsame ⊢
    omega

end Sequences

theorem readNumber_toDigits (n : ℕ) {rest : List Char} (hrest : Stops rest) :
    readNumber (Nat.toDigits 10 n ++ rest) = some (.number n, rest) := by
  have hdigits : ∀ c ∈ Nat.toDigits 10 n, c.isDigit = true :=
    fun c hc => Nat.isDigit_of_mem_toDigits (by omega) (by omega) hc
  have htake : (Nat.toDigits 10 n ++ rest).takeWhile Char.isDigit = Nat.toDigits 10 n := by
    rw [List.takeWhile_append_of_pos hdigits]
    cases rest with
    | nil => simp
    | cons c rest => simp [hrest c rfl]
  have hdrop : (Nat.toDigits 10 n ++ rest).dropWhile Char.isDigit = rest := by
    rw [List.dropWhile_append_of_pos hdigits]
    cases rest with
    | nil => rfl
    | cons c rest => simp [hrest c rfl]
  rw [readNumber, htake, hdrop]
  simp [Nat.toDigits_ne_nil, Nat.ofDigitChars_ten_toDigits]

/-- No other value starts with a digit. -/
theorem readValue_of_digit (depth : ℕ) {c : Char} (hc : c.isDigit = true) (rest : List Char) :
    readValue depth (c :: rest) = readNumber (c :: rest) := by
  have hne : ∀ d : Char, d.isDigit = false → c ≠ d := by
    rintro d hd rfl
    exact absurd hc (by simp [hd])
  unfold readValue
  split
  case h_7 => rfl
  all_goals
    rename_i heq
    exact absurd (List.cons.inj heq).1 (hne _ rfl)

theorem exists_toDigits_cons (n : ℕ) :
    ∃ c tail, Nat.toDigits 10 n = c :: tail ∧ c.isDigit = true := by
  cases hdigits : Nat.toDigits 10 n with
  | nil => exact absurd hdigits Nat.toDigits_ne_nil
  | cons c tail =>
    have hc : c ∈ Nat.toDigits 10 n := by
      rw [hdigits]
      exact List.mem_cons_self
    exact ⟨c, tail, rfl, Nat.isDigit_of_mem_toDigits (by omega) (by omega) hc⟩

theorem exists_write_cons {largest depth : ℕ} {v : Value} (h : v.Within largest depth) :
    ∃ c tail, v.write = c :: tail ∧ c ≠ ']' ∧ c ≠ '}' := by
  cases v with
  | number n =>
    obtain ⟨c, tail, hdigits, hc⟩ := exists_toDigits_cons n
    refine ⟨c, tail, by rw [Value.write, hdigits], ?_, ?_⟩
    · rintro rfl
      cases hc
    · rintro rfl
      cases hc
  | bool b => cases b <;> exact ⟨_, _, rfl, by decide, by decide⟩
  | real literal => cases depth <;> exact h.elim
  | null => exact ⟨_, _, rfl, by decide, by decide⟩
  | string s => exact ⟨_, _, rfl, by decide, by decide⟩
  | array items => exact ⟨_, _, rfl, by decide, by decide⟩
  | object members => exact ⟨_, _, rfl, by decide, by decide⟩

theorem reads_member {readPart : List Char → Option (Value × List Char)} {member : String × Value}
    (h : Reads readPart Value.write member.2) : Reads (readMember readPart) writeMember member := by
  intro rest hrest
  have hvalue := h rest hrest
  have hname := readString_write member.1 (':' :: (member.2.write ++ rest))
  simp only [writeMember, writeString, List.cons_append, List.append_assoc, List.nil_append,
    readMember]
  rw [hname]
  simp [hvalue]

theorem readValue_number (depth n : ℕ) : Reads (readValue depth) Value.write (.number n) := by
  intro rest hrest
  have hread := readNumber_toDigits n hrest
  obtain ⟨c, tail, hdigits, hc⟩ := exists_toDigits_cons n
  rw [Value.write, hdigits, List.cons_append, readValue_of_digit depth hc]
  rwa [hdigits] at hread

theorem readValue_string (depth : ℕ) (text : String) :
    Reads (readValue depth) Value.write (.string text) := by
  intro rest _
  have hread := readString_write text rest
  simp only [Value.write, writeString, List.cons_append, List.append_assoc, List.nil_append]
  cases depth <;> simp [readValue, hread]

/-- Induction on the depth; a sequence is read part by part. -/
theorem readValue_write {largest depth : ℕ} {v : Value} (h : v.Within largest depth) :
    Reads (readValue depth) Value.write v := by
  induction depth generalizing v with
  | zero =>
    cases v with
    | array items => exact h.elim
    | object members => exact h.elim
    | number n => exact readValue_number 0 n
    | real literal => exact h.elim
    | string text => exact readValue_string 0 text
    | null => exact fun rest _ => rfl
    | bool b => cases b <;> exact fun rest _ => rfl
  | succ depth ih =>
    cases v with
    | array items =>
      intro rest _
      have hread := readParts_separated (rfl : ']'.isDigit = false) (by decide) items
        (fun item hitem => ih (h item hitem))
        (fun item hitem => by
          obtain ⟨c, tail, hwrite, hc, -⟩ := exists_write_cons (h item hitem)
          exact ⟨c, tail, hwrite, hc⟩) rest
      simp only [Value.write, writeItems_eq_map, List.cons_append, List.append_assoc,
        List.nil_append, readValue]
      rw [hread]
      rfl
    | object members =>
      intro rest _
      have hread := readParts_separated (rfl : '}'.isDigit = false) (by decide) members
        (fun member hmember => reads_member (ih (h member hmember)))
        (fun member _ => ⟨'"', _, rfl, by decide⟩) rest
      simp only [Value.write, writeMembers_eq_map, List.cons_append, List.append_assoc,
        List.nil_append, readValue]
      rw [hread]
      rfl
    | number n => exact readValue_number _ n
    | real literal => exact h.elim
    | string text => exact readValue_string _ text
    | null => exact fun rest _ => rfl
    | bool b => cases b <;> exact fun rest _ => rfl

/-- A document within the depth is read back from its text. -/
theorem read_write {largest depth : ℕ} {v : Value} (h : v.Within largest depth) :
    read depth (String.ofList v.write) = some v := by
  have hread := readValue_write h [] (by simp [Stops])
  rw [List.append_nil] at hread
  simp [read, hread]

end Json
