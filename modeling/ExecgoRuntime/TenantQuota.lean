import ExecgoRuntime.Ledger
import ExecgoRuntime.Lib.Cells
import ExecgoRuntime.Lib.Delimited

/-!
Tenant quotas on the command line. A specification is a name, the first `=`, and
pieces between commas, each a key and an amount with a colon between. White space
around a part, the order of the pieces and empty pieces carry no meaning, and of
several amounts for one key the last counts.
-/
namespace ExecgoRuntime

open Delimited

/-- `str::parse::<u64>`. -/
def parseU64 (text : List Char) : Option ℕ :=
  let digits := if text.head? = some '+' then text.tail else text
  if digits ≠ [] ∧ digits.all Char.isDigit = true ∧ Nat.ofDigitChars 10 digits 0 ≤ u64Max then
    some (Nat.ofDigitChars 10 digits 0)
  else none

namespace Component

def quotaKey : Component → String
  | taskSlots => "slots"
  | memoryBytes => "memory"
  | pids => "pids"

def ofQuotaKey (key : String) : Option Component :=
  if key = "slots" then some taskSlots
  else if key = "memory" then some memoryBytes
  else if key = "pids" then some pids
  else none

end Component

/-- The three options that the loop over the pieces fills. -/
structure QuotaAmounts where
  taskSlots : Option ℕ := none
  memoryBytes : Option ℕ := none
  pids : Option ℕ := none
  deriving DecidableEq

namespace QuotaAmounts

def of : Component → QuotaAmounts → Option ℕ
  | .taskSlots, amounts => amounts.taskSlots
  | .memoryBytes, amounts => amounts.memoryBytes
  | .pids, amounts => amounts.pids

def set (amounts : QuotaAmounts) : Component → ℕ → QuotaAmounts
  | .taskSlots, amount => { amounts with taskSlots := some amount }
  | .memoryBytes, amount => { amounts with memoryBytes := some amount }
  | .pids, amount => { amounts with pids := some amount }

/-- Every amount fits the type of the source. -/
def Words (amounts : QuotaAmounts) : Prop :=
  ∀ c : Component, ∀ n ∈ amounts.of c, n ≤ u64Max

end QuotaAmounts

def quotaError (raw detail : String) : AppError :=
  .invalidInput ("tenant-quota '" ++ raw ++ "': " ++ detail)

/-- The body of the loop over the pieces. -/
def readQuotaPiece (raw : String) (amounts : QuotaAmounts) (piece : List Char) :
    AppResult QuotaAmounts :=
  let kv := strip isWhitespace piece
  if kv = [] then .ok amounts
  else
    match splitOnce ':' kv with
    | none => .error (quotaError raw ("malformed key-value '" ++ String.ofList kv ++ "'"))
    | some (key, val) =>
      let key := String.ofList (strip isWhitespace key)
      let val := strip isWhitespace val
      match Component.ofQuotaKey key with
      | none => .error (quotaError raw ("unknown key '" ++ key ++ "'"))
      | some c =>
        match parseU64 val with
        | none => .error (quotaError raw
            (c.quotaKey ++ " value '" ++ String.ofList val ++ "' is not a valid u64"))
        | some amount => .ok (amounts.set c amount)

def parseTenantQuota (raw : String) : AppResult (String × ResourceCapacity) := do
  match splitOnce '=' raw.toList with
  | none => throw (quotaError raw "expected format name=slots:N[,memory:BYTES][,pids:N]")
  | some (namePart, specPart) =>
    let name := strip isWhitespace namePart
    if name = [] then
      throw (.invalidInput "tenant-quota: tenant name must not be empty")
    let amounts ← (specPart.splitOn ',').foldlM (readQuotaPiece raw) {}
    match amounts.taskSlots with
    | none => throw (quotaError raw "'slots' is required")
    | some taskSlots =>
      return (String.ofList name, {
        taskSlots
        memoryBytes := amounts.memoryBytes
        pids := amounts.pids })

/-- A name that the part before the first `=` can spell. -/
structure IsTenantName (name : String) : Prop where
  nonempty : name ≠ ""
  trimmed : Stripped isWhitespace name.toList
  free : '=' ∉ name.toList

/-- Amounts as the source types them. -/
def ResourceCapacity.Words (capacity : ResourceCapacity) : Prop :=
  ∀ c : Component, ∀ amount ∈ c.of capacity, amount ≤ u64Max

/-- `key:amount`, with white space around the key, the amount and the piece. -/
def SpellsAmount (c : Component) (amount : ℕ) (piece : List Char) : Prop :=
  ∃ key value, Padded isWhitespace c.quotaKey.toList key ∧
    Padded isWhitespace (Nat.toDigits 10 amount) value ∧
    Padded isWhitespace (key ++ ':' :: value) piece

/-- The pieces spell the amounts in their order, with blank pieces anywhere. -/
inductive Spells : List (Component × ℕ) → List (List Char) → Prop
  | nil : Spells [] []
  | blank {amounts : List (Component × ℕ)} {piece : List Char} {pieces : List (List Char)} :
      (∀ x ∈ piece, isWhitespace x = true) → Spells amounts pieces →
      Spells amounts (piece :: pieces)
  | amount {c : Component} {n : ℕ} {amounts : List (Component × ℕ)} {piece : List Char}
      {pieces : List (List Char)} : n ≤ u64Max → SpellsAmount c n piece → Spells amounts pieces →
      Spells ((c, n) :: amounts) (piece :: pieces)

/-- The last amount of every component is the one in the capacity. -/
def Gives (amounts : List (Component × ℕ)) (capacity : ResourceCapacity) : Prop :=
  ∀ c : Component, amounts.reverse.lookup c = c.of capacity

/-- `raw` is `name=pieces`, the name with white space around it. -/
def Renders (name : String) (capacity : ResourceCapacity) (raw : String) : Prop :=
  ∃ namePart amounts pieces, Padded isWhitespace name.toList namePart ∧
    Gives amounts capacity ∧ Spells amounts pieces ∧
    raw.toList = namePart ++ '=' :: [','].intercalate pieces

/-- The amounts of a capacity in the order of the usage line. -/
def ResourceCapacity.amounts (capacity : ResourceCapacity) : List (Component × ℕ) :=
  [Component.taskSlots, .memoryBytes, .pids].filterMap (fun c => (c.of capacity).map (c, ·))

def renderAmount (entry : Component × ℕ) : List Char :=
  entry.1.quotaKey.toList ++ ':' :: Nat.toDigits 10 entry.2

def renderTenantQuota (name : String) (capacity : ResourceCapacity) : String :=
  String.ofList (name.toList ++ '=' :: [','].intercalate (capacity.amounts.map renderAmount))

example : renderTenantQuota "team" ⟨4, none, some 64⟩ = "team=slots:4,pids:64" := by
  decide +kernel

theorem not_isWhitespace_of_isDigit {c : Char} (h : c.isDigit = true) : isWhitespace c = false := by
  have hbounds : 48 ≤ c.toNat ∧ c.toNat ≤ 57 := by
    simpa [Char.isDigit, UInt32.le_iff_toNat_le] using h
  rw [Bool.eq_false_iff]
  intro hspace
  simp only [isWhitespace, Bool.or_eq_true, Bool.and_eq_true, decide_eq_true_eq,
    beq_iff_eq] at hspace
  omega

theorem isDigit_of_mem_toDigits {n : ℕ} {c : Char} (h : c ∈ Nat.toDigits 10 n) :
    c.isDigit = true :=
  Nat.isDigit_of_mem_toDigits (by omega) (by omega) h

theorem parseU64_toDigits {n : ℕ} (hn : n ≤ u64Max) : parseU64 (Nat.toDigits 10 n) = some n := by
  have hsign : (Nat.toDigits 10 n).head? ≠ some '+' := by
    intro hhead
    have hdigit := isDigit_of_mem_toDigits (List.mem_of_mem_head? hhead)
    revert hdigit
    decide
  have hdigits : (Nat.toDigits 10 n).all Char.isDigit = true :=
    List.all_eq_true.mpr fun c hc => isDigit_of_mem_toDigits hc
  simp only [parseU64, if_neg hsign, Nat.ofDigitChars_ten_toDigits]
  rw [if_pos ⟨Nat.toDigits_ne_nil, hdigits, hn⟩]

theorem parseU64_le {text : List Char} {n : ℕ} (h : parseU64 text = some n) : n ≤ u64Max := by
  simp only [parseU64, Option.ite_none_right_eq_some, Option.some.injEq] at h
  obtain ⟨⟨_, _, hle⟩, hvalue⟩ := h
  rw [← hvalue]
  exact hle

namespace QuotaAmounts

@[simp]
theorem of_set_self (amounts : QuotaAmounts) (c : Component) (n : ℕ) :
    (amounts.set c n).of c = some n := by
  cases c <;> rfl

theorem of_set_of_ne (amounts : QuotaAmounts) (c : Component) (n : ℕ) (d : Component)
    (h : d ≠ c) : (amounts.set c n).of d = amounts.of d := by
  cases c <;> cases d <;> first | rfl | exact absurd rfl h

/-- One cell for each component. -/
def cells : Cells QuotaAmounts Component ℕ where
  get amounts c := amounts.of c
  set := set
  get_set_self := of_set_self
  get_set_of_ne := of_set_of_ne

theorem Words.set {amounts : QuotaAmounts} (h : amounts.Words) (c : Component) {n : ℕ}
    (hn : n ≤ u64Max) : (amounts.set c n).Words := by
  intro d m hm
  by_cases hcase : d = c
  · subst d
    rw [of_set_self, Option.mem_some_iff] at hm
    rw [← hm]
    exact hn
  · rw [of_set_of_ne amounts c n d hcase] at hm
    exact h d m hm

end QuotaAmounts

@[simp]
theorem Component.ofQuotaKey_quotaKey (c : Component) : ofQuotaKey c.quotaKey = some c := by
  cases c <;> decide

theorem readQuotaPiece_blank {piece : List Char} (h : ∀ x ∈ piece, isWhitespace x = true)
    (raw : String) (amounts : QuotaAmounts) : readQuotaPiece raw amounts piece = .ok amounts := by
  simp [readQuotaPiece, strip_eq_nil h]

theorem readQuotaPiece_amount {c : Component} {n : ℕ} {piece : List Char} (hn : n ≤ u64Max)
    (h : SpellsAmount c n piece) (raw : String) (amounts : QuotaAmounts) :
    readQuotaPiece raw amounts piece = .ok (amounts.set c n) := by
  obtain ⟨key, value, hkey, hvalue, hpiece⟩ := h
  have hdigits : Stripped isWhitespace (Nat.toDigits 10 n) :=
    stripped_of_forall fun x hx => not_isWhitespace_of_isDigit (isDigit_of_mem_toDigits hx)
  obtain ⟨before, after, hsplit, hbefore, hafter⟩ :=
    splitOnce_strip (by decide) (by cases c <;> decide) (by cases c <;> decide)
      (by cases c <;> decide) hdigits Nat.toDigits_ne_nil hkey hvalue hpiece
  have hnonempty : strip isWhitespace piece ≠ [] := by
    intro hnil
    rw [hnil] at hsplit
    cases hsplit
  simp [readQuotaPiece, hnonempty, hsplit, hbefore, hafter, parseU64_toDigits hn]

theorem foldlM_spells {entries : List (Component × ℕ)} {pieces : List (List Char)}
    (h : Spells entries pieces) (raw : String) (amounts : QuotaAmounts) :
    pieces.foldlM (readQuotaPiece raw) amounts =
      .ok (QuotaAmounts.cells.setAll amounts entries) := by
  induction h generalizing amounts with
  | nil => rfl
  | blank hblank _ ih =>
    rw [List.foldlM_cons, readQuotaPiece_blank hblank]
    exact ih amounts
  | @amount c n entries piece pieces hn hpiece _ ih =>
    rw [List.foldlM_cons, readQuotaPiece_amount hn hpiece]
    exact ih (amounts.set c n)

theorem no_comma_of_spells {entries : List (Component × ℕ)} {pieces : List (List Char)}
    (h : Spells entries pieces) : ∀ piece ∈ pieces, ',' ∉ piece := by
  have hcomma : isWhitespace ',' = false := by decide
  induction h with
  | nil => simp
  | blank hblank _ ih =>
    refine List.forall_mem_cons.mpr ⟨fun hmem => ?_, ih⟩
    rw [hblank _ hmem] at hcomma
    cases hcomma
  | @amount c n entries piece pieces _ hpiece _ ih =>
    refine List.forall_mem_cons.mpr ⟨?_, ih⟩
    obtain ⟨key, value, hkey, hvalue, hpiece⟩ := hpiece
    have hkey' : ',' ∉ key := hkey.not_mem hcomma (by cases c <;> decide)
    have hvalue' : ',' ∉ value := by
      refine hvalue.not_mem hcomma fun hmem => ?_
      have hdigit := isDigit_of_mem_toDigits hmem
      revert hdigit
      decide
    refine hpiece.not_mem hcomma ?_
    simp [hkey', hvalue']

/-- A piece is blank, or it sets one component to an amount of the source's type. -/
theorem readQuotaPiece_ok {raw : String} {amounts amounts' : QuotaAmounts} {piece : List Char}
    (h : readQuotaPiece raw amounts piece = .ok amounts') :
    amounts' = amounts ∨ ∃ c n, n ≤ u64Max ∧ amounts' = amounts.set c n := by
  simp only [readQuotaPiece] at h
  split at h
  · cases h
    exact .inl rfl
  split at h
  · cases h
  split at h
  · cases h
  split at h
  · cases h
  rename_i c _ _ n hparse
  cases h
  exact .inr ⟨c, n, parseU64_le hparse, rfl⟩

theorem foldlM_readQuotaPiece_words {raw : String} {pieces : List (List Char)}
    {amounts amounts' : QuotaAmounts}
    (h : pieces.foldlM (readQuotaPiece raw) amounts = .ok amounts') (hwords : amounts.Words) :
    amounts'.Words := by
  induction pieces generalizing amounts with
  | nil =>
    cases h
    exact hwords
  | cons piece pieces ih =>
    rw [List.foldlM_cons] at h
    cases hpiece : readQuotaPiece raw amounts piece with
    | error e =>
      rw [hpiece] at h
      cases h
    | ok next =>
      rw [hpiece] at h
      refine ih h ?_
      rcases readQuotaPiece_ok hpiece with rfl | ⟨c, n, hn, rfl⟩
      · exact hwords
      · exact hwords.set c hn

theorem parseTenantQuota_of_renders {name raw : String} {capacity : ResourceCapacity}
    (hname : IsTenantName name) (h : Renders name capacity raw) :
    parseTenantQuota raw = .ok (name, capacity) := by
  obtain ⟨namePart, entries, pieces, hpart, hgives, hspells, hraw⟩ := h
  have hfree : '=' ∉ namePart := hpart.not_mem (by decide) hname.free
  have hpieces : pieces ≠ [] := by
    rintro rfl
    cases hspells
    cases hgives .taskSlots
  have hsplit : ([','].intercalate pieces).splitOn ',' = pieces :=
    List.splitOn_intercalate ',' (no_comma_of_spells hspells) hpieces
  have hstrip : strip isWhitespace namePart = name.toList := strip_padded hname.trimmed hpart
  have hnonempty : name.toList ≠ [] := by simpa using hname.nonempty
  have hof : ∀ c : Component, (QuotaAmounts.cells.setAll {} entries).of c = c.of capacity := by
    intro c
    have hlast := QuotaAmounts.cells.get_setAll {} entries c
    rw [hgives c] at hlast
    refine hlast.trans ?_
    cases c <;> exact Option.or_none
  have hslots : (QuotaAmounts.cells.setAll {} entries).taskSlots = some capacity.taskSlots :=
    hof .taskSlots
  have hmemory : (QuotaAmounts.cells.setAll {} entries).memoryBytes = capacity.memoryBytes :=
    hof .memoryBytes
  have hpids : (QuotaAmounts.cells.setAll {} entries).pids = capacity.pids := hof .pids
  simp [parseTenantQuota, hraw, splitOnce_append hfree, hstrip, hnonempty, hsplit,
    foldlM_spells hspells, hslots, hmemory, hpids, bind, Except.bind, pure, Except.pure]

theorem gives_amounts (capacity : ResourceCapacity) : Gives capacity.amounts capacity := by
  obtain ⟨taskSlots, memoryBytes, pids⟩ := capacity
  intro c
  cases memoryBytes <;> cases pids <;> cases c <;> rfl

theorem spells_renderAmount {entries : List (Component × ℕ)} (h : ∀ entry ∈ entries,
    entry.2 ≤ u64Max) : Spells entries (entries.map renderAmount) := by
  induction entries with
  | nil => exact .nil
  | cons entry entries ih =>
    obtain ⟨hentry, hentries⟩ := List.forall_mem_cons.mp h
    exact .amount hentry ⟨_, _, Padded.refl _ _, Padded.refl _ _, Padded.refl _ _⟩ (ih hentries)

/-- The canonical text is one of the renderings. -/
theorem renders_renderTenantQuota (name : String) {capacity : ResourceCapacity}
    (h : capacity.Words) : Renders name capacity (renderTenantQuota name capacity) := by
  have hwords : ∀ entry ∈ capacity.amounts, entry.2 ≤ u64Max := by
    intro entry hentry
    obtain ⟨c, _, hc⟩ := List.mem_filterMap.mp hentry
    obtain ⟨n, hn, rfl⟩ := Option.map_eq_some_iff.mp hc
    exact h c n hn
  exact ⟨name.toList, capacity.amounts, capacity.amounts.map renderAmount, Padded.refl _ _,
    gives_amounts capacity, spells_renderAmount hwords, by simp [renderTenantQuota]⟩

/-- What the parser returns can be rendered. -/
theorem parseTenantQuota_ok {raw name : String} {capacity : ResourceCapacity}
    (h : parseTenantQuota raw = .ok (name, capacity)) : IsTenantName name ∧ capacity.Words := by
  simp only [parseTenantQuota, bind, Except.bind] at h
  cases hsplit : splitOnce '=' raw.toList with
  | none =>
    rw [hsplit] at h
    cases h
  | some halves =>
    obtain ⟨namePart, specPart⟩ := halves
    obtain ⟨hfree, -⟩ := splitOnce_eq_some_iff.mp hsplit
    simp only [hsplit] at h
    split at h
    · cases h
    rename_i hnonempty
    have hname : IsTenantName (String.ofList (strip isWhitespace namePart)) :=
      { nonempty := by simpa using hnonempty
        trimmed := by simpa using stripped_strip isWhitespace namePart
        free := by simpa using fun hmem => hfree (mem_of_mem_strip hmem) }
    split at h
    · cases h
    rename_i amounts hamounts
    have hwords : amounts.Words :=
      foldlM_readQuotaPiece_words hamounts fun c n hn => by cases c <;> cases hn
    split at h
    · cases h
    rename_i taskSlots hslots
    cases h
    refine ⟨hname, fun c n hn => hwords c n ?_⟩
    cases c with
    | taskSlots =>
      rw [QuotaAmounts.of, hslots]
      exact hn
    | memoryBytes => exact hn
    | pids => exact hn

/-- Every rendering of a name and a capacity is parsed to them, and the canonical
rendering of what is parsed from any text is parsed to the same. -/
theorem tenant_quota_round_trip :
    (∀ (name : String) (capacity : ResourceCapacity), IsTenantName name → capacity.Words →
      Renders name capacity (renderTenantQuota name capacity) ∧
      ∀ raw : String, Renders name capacity raw →
        parseTenantQuota raw = .ok (name, capacity)) ∧
    ∀ (raw name : String) (capacity : ResourceCapacity),
      parseTenantQuota raw = .ok (name, capacity) →
      parseTenantQuota (renderTenantQuota name capacity) = .ok (name, capacity) := by
  constructor
  · intro name capacity hname hwords
    refine ⟨renders_renderTenantQuota name hwords, fun raw hrenders => ?_⟩
    exact parseTenantQuota_of_renders hname hrenders
  · intro raw name capacity hparsed
    obtain ⟨hname, hwords⟩ := parseTenantQuota_ok hparsed
    exact parseTenantQuota_of_renders hname (renders_renderTenantQuota name hwords)

/-- A name with a comma and a colon, padding, a blank piece and a duplicate key. -/
theorem tenant_quota_round_trip_padded :
    parseTenantQuota " a,b:c = pids : 7 ,, slots:1,slots: 4 " =
        .ok ("a,b:c", ⟨4, none, some 7⟩) ∧
      parseTenantQuota (renderTenantQuota "a,b:c" ⟨4, none, some 7⟩) =
        .ok ("a,b:c", ⟨4, none, some 7⟩) := by
  have hname : IsTenantName "a,b:c" := ⟨by decide, by decide, by decide⟩
  have hwords : ResourceCapacity.Words ⟨4, none, some 7⟩ := by
    intro c n hn
    cases c <;> cases hn <;> decide
  have hpad : ∀ x ∈ [' '], isWhitespace x = true := List.all_eq_true.mp rfl
  have hspells : Spells [(.pids, 7), (.taskSlots, 1), (.taskSlots, 4)]
      [" pids : 7 ".toList, [], " slots:1".toList, "slots: 4 ".toList] := by
    refine .amount (by decide) ⟨" pids ".toList, " 7 ".toList, ?_, ?_, Padded.refl _ _⟩
      (.blank (by simp) (.amount (by decide) ⟨" slots".toList, "1".toList, ?_, ?_, Padded.refl _ _⟩
        (.amount (by decide) ⟨"slots".toList, " 4 ".toList, ?_, ?_, Padded.refl _ _⟩ .nil)))
    · exact ⟨[' '], [' '], by decide, hpad, hpad⟩
    · exact ⟨[' '], [' '], by decide, hpad, hpad⟩
    · exact ⟨[' '], [], by decide, hpad, by simp⟩
    · exact Padded.refl _ _
    · exact Padded.refl _ _
    · exact ⟨[' '], [' '], by decide, hpad, hpad⟩
  have hrenders : Renders "a,b:c" ⟨4, none, some 7⟩
      " a,b:c = pids : 7 ,, slots:1,slots: 4 " := by
    refine ⟨" a,b:c ".toList, _, _, ⟨[' '], [' '], by decide, hpad, hpad⟩, ?_, hspells,
      by decide +kernel⟩
    intro c
    cases c <;> decide
  have hparsed := (tenant_quota_round_trip.1 "a,b:c" ⟨4, none, some 7⟩ hname hwords).2 _ hrenders
  exact ⟨hparsed, tenant_quota_round_trip.2 _ _ _ hparsed⟩

end ExecgoRuntime
