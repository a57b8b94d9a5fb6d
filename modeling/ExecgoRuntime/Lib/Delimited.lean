import Mathlib.Data.List.DropRight
import Mathlib.Data.List.TakeWhile

/-!
Delimited text. A list is stripped of the padding at its two ends, or cut at one
or all of its separators; padding and joining are the inverses. Every statement
is about lists over an arbitrary alphabet.
-/
namespace Delimited

variable {α : Type*}

/-- The list without the elements of `p` at its two ends. -/
def strip (p : α → Bool) (xs : List α) : List α :=
  ((xs.dropWhile p).reverse.dropWhile p).reverse

/-- No padding at either end. -/
def Stripped (p : α → Bool) (xs : List α) : Prop :=
  (∀ x ∈ xs.head?, p x = false) ∧ ∀ x ∈ xs.getLast?, p x = false

/-- The list is `core` with padding around it. -/
def Padded (p : α → Bool) (core xs : List α) : Prop :=
  ∃ before after, xs = before ++ core ++ after ∧
    (∀ x ∈ before, p x = true) ∧ ∀ x ∈ after, p x = true

variable {p : α → Bool} {xs core : List α}

instance : DecidablePred (Stripped p) := fun _ => by
  unfold Stripped
  infer_instance

theorem dropWhile_eq_self (h : ∀ x ∈ xs.head?, p x = false) : xs.dropWhile p = xs := by
  cases xs with
  | nil => rfl
  | cons x xs =>
    have hx : p x = false := h x rfl
    rw [List.dropWhile_cons_of_neg (by simp [hx])]

theorem head?_dropWhile (p : α → Bool) (xs : List α) :
    ∀ x ∈ (xs.dropWhile p).head?, p x = false := by
  intro x hx
  have hnot := List.head?_dropWhile_not p xs
  rw [Option.mem_def.mp hx] at hnot
  simpa using hnot

theorem strip_padded (hcore : Stripped p core) (h : Padded p core xs) : strip p xs = core := by
  obtain ⟨before, after, rfl, hbefore, hafter⟩ := h
  have hafter' : ∀ x ∈ after.reverse, p x = true := by simpa using hafter
  rw [strip, List.append_assoc, List.dropWhile_append_of_pos hbefore]
  by_cases hnil : core = []
  · rw [hnil, List.nil_append, List.dropWhile_eq_nil_iff.mpr hafter]
    rfl
  · have hhead : ∀ x ∈ (core ++ after).head?, p x = false := by
      rw [List.head?_append_of_ne_nil _ hnil]
      exact hcore.1
    have hlast : ∀ x ∈ core.reverse.head?, p x = false := by
      rw [List.head?_reverse]
      exact hcore.2
    rw [dropWhile_eq_self hhead, List.reverse_append, List.dropWhile_append_of_pos hafter',
      dropWhile_eq_self hlast, List.reverse_reverse]

theorem strip_of_stripped (h : Stripped p xs) : strip p xs = xs :=
  strip_padded h ⟨[], [], by simp, by simp, by simp⟩

/-- The padding on the right of what is left after the padding on the left. -/
theorem dropWhile_eq_strip_append (p : α → Bool) (xs : List α) :
    xs.dropWhile p = strip p xs ++ ((xs.dropWhile p).reverse.takeWhile p).reverse := by
  rw [strip, ← List.reverse_append, List.takeWhile_append_dropWhile, List.reverse_reverse]

theorem padded_strip (p : α → Bool) (xs : List α) : Padded p (strip p xs) xs := by
  refine ⟨xs.takeWhile p, ((xs.dropWhile p).reverse.takeWhile p).reverse, ?_, ?_, ?_⟩
  · rw [List.append_assoc, ← dropWhile_eq_strip_append, List.takeWhile_append_dropWhile]
  · intro x hx
    exact List.mem_takeWhile_imp hx
  · intro x hx
    exact List.mem_takeWhile_imp (List.mem_reverse.mp hx)

theorem stripped_strip (p : α → Bool) (xs : List α) : Stripped p (strip p xs) := by
  constructor
  · intro x hx
    apply head?_dropWhile p xs
    rw [dropWhile_eq_strip_append, Option.mem_def, List.head?_append_of_ne_nil]
    · exact hx
    · intro hnil
      rw [hnil] at hx
      cases hx
  · rw [strip, List.getLast?_reverse]
    exact head?_dropWhile p _

theorem strip_eq_self_iff : strip p xs = xs ↔ Stripped p xs := by
  constructor
  · intro h
    rw [← h]
    exact stripped_strip p xs
  · exact strip_of_stripped

theorem mem_of_mem_strip {x : α} (h : x ∈ strip p xs) : x ∈ xs := by
  obtain ⟨before, after, hxs, -, -⟩ := padded_strip p xs
  rw [hxs]
  simp [h]

theorem stripped_of_forall (h : ∀ x ∈ xs, p x = false) : Stripped p xs :=
  ⟨fun x hx => h x (List.mem_of_mem_head? hx), fun x hx => h x (List.mem_of_mem_getLast? hx)⟩

theorem strip_eq_nil (h : ∀ x ∈ xs, p x = true) : strip p xs = [] :=
  strip_padded ⟨by simp, by simp⟩ ⟨xs, [], by simp, h, by simp⟩

theorem Padded.refl (p : α → Bool) (xs : List α) : Padded p xs xs :=
  ⟨[], [], by simp, by simp, by simp⟩

theorem Padded.trans {ys : List α} (h : Padded p core xs) (hxs : Padded p xs ys) :
    Padded p core ys := by
  obtain ⟨before, after, rfl, hbefore, hafter⟩ := h
  obtain ⟨before', after', rfl, hbefore', hafter'⟩ := hxs
  refine ⟨before' ++ before, after ++ after', by simp, ?_, ?_⟩
  · intro x hx
    rcases List.mem_append.mp hx with hx | hx
    · exact hbefore' x hx
    · exact hbefore x hx
  · intro x hx
    rcases List.mem_append.mp hx with hx | hx
    · exact hafter x hx
    · exact hafter' x hx

/-- Padding adds padding only. -/
theorem Padded.not_mem {x : α} (h : Padded p core xs) (hp : p x = false) (hx : x ∉ core) :
    x ∉ xs := by
  obtain ⟨before, after, rfl, hbefore, hafter⟩ := h
  have hbefore' : x ∉ before := fun hmem => by simp [hbefore x hmem] at hp
  have hafter' : x ∉ after := fun hmem => by simp [hafter x hmem] at hp
  simp [hbefore', hafter', hx]

theorem Padded.mem {x : α} (h : Padded p core xs) (hx : x ∈ xs) (hp : p x = false) : x ∈ core := by
  by_contra hnot
  exact h.not_mem hp hnot hx

/-- Only padding is stripped. -/
theorem mem_strip {x : α} (hx : x ∈ xs) (hp : p x = false) : x ∈ strip p xs :=
  (padded_strip p xs).mem hx hp

/-- Neither list is a beginning of the other. -/
def Diverge (xs ys : List α) : Prop := ¬ xs <+: ys ∧ ¬ ys <+: xs

instance [DecidableEq α] (xs ys : List α) : Decidable (Diverge xs ys) := by
  unfold Diverge
  infer_instance

theorem Diverge.not_begins {label other : List α} (h : Diverge label other) (rest : List α) :
    ¬ label <+: other ++ rest := by
  intro hbegins
  rcases List.prefix_or_prefix_of_prefix hbegins (List.prefix_append other rest) with hle | hle
  · exact h.1 hle
  · exact h.2 hle

/-- Different words diverge once each is closed by a separator. -/
theorem diverge_of_ne {sep : α} {xs ys : List α} (hxs : sep ∉ xs) (hys : sep ∉ ys)
    (hne : xs ≠ ys) : Diverge (xs ++ [sep]) (ys ++ [sep]) := by
  have hbegins : ∀ {left right : List α}, sep ∉ right → left ++ [sep] <+: right ++ [sep] →
      left = right := by
    rintro left right hright ⟨rest, hrest⟩
    by_cases hnil : rest = []
    · rw [hnil, List.append_nil] at hrest
      exact List.append_cancel_right hrest
    · obtain ⟨front, last, rfl⟩ := List.eq_nil_or_concat rest |>.resolve_left hnil
      have hinit : left ++ [sep] ++ front = right := by
        rw [List.concat_eq_append, ← List.append_assoc] at hrest
        exact (List.append_inj' hrest rfl).1
      exact absurd (by simp [← hinit]) hright
  exact ⟨fun h => hne (hbegins hys h), fun h => hne (hbegins hxs h).symm⟩

/-- The text stands between two separators of the list, or between one and an end. -/
def IsPart (sep : α) (part xs : List α) : Prop :=
  ∃ before after, xs = before ++ part ++ after ∧
    (before = [] ∨ before.getLast? = some sep) ∧ (after = [] ∨ after.head? = some sep)

variable [BEq α] [LawfulBEq α] {sep : α} {part : List α}

theorem mem_splitOn_of_isPart (hsep : sep ∉ part) (h : IsPart sep part xs) :
    part ∈ xs.splitOn sep := by
  obtain ⟨before, after, rfl, hbefore, hafter⟩ := h
  have hright : part ∈ (part ++ after).splitOn sep := by
    cases after with
    | nil =>
      rw [List.append_nil, List.splitOn_eq_singleton hsep]
      exact List.mem_singleton_self _
    | cons c after =>
      have hc : c = sep := by simpa using hafter
      rw [hc, List.splitOn_append_cons_self_of_not_mem hsep]
      exact List.mem_cons_self
  rcases hbefore with rfl | hlast
  · exact hright
  · obtain ⟨front, rfl⟩ := List.getLast?_eq_some_iff.mp hlast
    have hsplit : front ++ [sep] ++ part ++ after = front ++ sep :: (part ++ after) := by simp
    rw [hsplit, List.splitOn_append_cons_self]
    exact List.mem_append_right _ hright

theorem isPart_of_mem_splitOn {xs : List α} (h : part ∈ xs.splitOn sep) :
    sep ∉ part ∧ IsPart sep part xs := by
  by_cases hmem : sep ∈ xs
  · obtain ⟨first, rest, hxs, hfirst⟩ := List.eq_append_cons_of_mem hmem
    rw [hxs, List.splitOn_append_cons_self_of_not_mem hfirst] at h
    rcases List.mem_cons.mp h with rfl | hrest
    · exact ⟨hfirst, [], sep :: rest, hxs, .inl rfl, .inr rfl⟩
    · have hshorter : rest.length < xs.length := by
        rw [hxs, List.length_append, List.length_cons]
        omega
      obtain ⟨hsep, before, after, hsplit, hbefore, hafter⟩ := isPart_of_mem_splitOn hrest
      refine ⟨hsep, first ++ sep :: before, after, by simp [hxs, hsplit], .inr ?_, hafter⟩
      rcases hbefore with rfl | hlast
      · simp
      · rw [List.getLast?_append, List.getLast?_cons, hlast]
        rfl
  · rw [List.splitOn_eq_singleton hmem, List.mem_singleton] at h
    subst h
    exact ⟨hmem, [], [], by simp, .inl rfl, .inl rfl⟩
termination_by xs.length

/-- The pieces of a list are the texts without separator that stand between separators. -/
theorem mem_splitOn_iff (hsep : sep ∉ part) : part ∈ xs.splitOn sep ↔ IsPart sep part xs :=
  ⟨fun h => (isPart_of_mem_splitOn h).2, mem_splitOn_of_isPart hsep⟩

/-- What stands before and after the first separator. -/
def splitOnce (sep : α) : List α → Option (List α × List α)
  | [] => none
  | x :: xs =>
    if x == sep then some ([], xs)
    else (splitOnce sep xs).map (fun halves => (x :: halves.1, halves.2))

theorem splitOnce_append {left : List α} (hleft : sep ∉ left) (right : List α) :
    splitOnce sep (left ++ sep :: right) = some (left, right) := by
  induction left with
  | nil => simp [splitOnce]
  | cons x left ih =>
    rw [List.mem_cons, not_or] at hleft
    have hne : (x == sep) = false := beq_eq_false_iff_ne.mpr (Ne.symm hleft.1)
    rw [List.cons_append, splitOnce, hne, ih hleft.2]
    rfl

theorem splitOnce_eq_some_iff {left right : List α} :
    splitOnce sep xs = some (left, right) ↔ sep ∉ left ∧ xs = left ++ sep :: right := by
  constructor
  · intro h
    by_cases hmem : sep ∈ xs
    · obtain ⟨front, back, rfl, hfront⟩ := List.eq_append_cons_of_mem hmem
      rw [splitOnce_append hfront] at h
      cases h
      exact ⟨hfront, rfl⟩
    · have hnone : splitOnce sep xs = none := by
        clear h
        induction xs with
        | nil => rfl
        | cons x xs ih =>
          rw [List.mem_cons, not_or] at hmem
          have hne : (x == sep) = false := beq_eq_false_iff_ne.mpr (Ne.symm hmem.1)
          rw [splitOnce, hne, ih hmem.2]
          rfl
      rw [hnone] at h
      cases h
  · rintro ⟨hleft, rfl⟩
    exact splitOnce_append hleft right

/-- The lines one after the other, each with the separator at its end. -/
def terminate (sep : α) (lines : List (List α)) : List α := lines.flatMap (· ++ [sep])

theorem splitOn_terminate {lines : List (List α)} (h : ∀ line ∈ lines, sep ∉ line) :
    (terminate sep lines).splitOn sep = lines ++ [[]] := by
  induction lines with
  | nil => rfl
  | cons line lines ih =>
    obtain ⟨hline, hlines⟩ := List.forall_mem_cons.mp h
    have hcons : terminate sep (line :: lines) = line ++ sep :: terminate sep lines := by
      simp [terminate]
    rw [hcons, List.splitOn_append_cons_self_of_not_mem hline, ih hlines]
    rfl

/-- What stands behind the label in the lines that begin with it. -/
def labelled (sep : α) (label text : List α) : List (List α) :=
  (text.splitOn sep).filterMap label.isPrefixOf?

theorem isPrefixOf?_append (label value : List α) :
    label.isPrefixOf? (label ++ value) = some value := by
  induction label with
  | nil => rfl
  | cons x label ih => simp [List.isPrefixOf?, ih]

theorem isPrefixOf?_eq_none {label line : List α} (h : ¬ label <+: line) :
    label.isPrefixOf? line = none := by
  induction label generalizing line with
  | nil => exact absurd (List.nil_prefix) h
  | cons x label ih =>
    cases line with
    | nil => rfl
    | cons y line =>
      rw [List.isPrefixOf?]
      split
      · rename_i heq
        rw [eq_of_beq heq, List.cons_prefix_cons] at h
        exact ih fun hbegins => h ⟨rfl, hbegins⟩
      · rfl

/-- Where the labels diverge from one another, a label reads its own value only. -/
theorem labelled_entries {entries : List (List α × List α)}
    (hpairs : (entries.map Prod.fst).Pairwise Diverge) {label value : List α}
    (hmem : (label, value) ∈ entries) :
    (entries.map (fun entry => entry.1 ++ entry.2)).filterMap label.isPrefixOf? = [value] := by
  induction entries with
  | nil => cases hmem
  | cons entry entries ih =>
    obtain ⟨hfirst, hrest⟩ := List.pairwise_cons.mp hpairs
    rcases List.mem_cons.mp hmem with rfl | hmem
    · have hnone : ∀ line ∈ entries.map (fun entry => entry.1 ++ entry.2),
          label.isPrefixOf? line = none := by
        intro line hline
        obtain ⟨other, hother, rfl⟩ := List.mem_map.mp hline
        exact isPrefixOf?_eq_none ((hfirst _ (List.mem_map_of_mem hother)).not_begins _)
      rw [List.map_cons, List.filterMap_cons, isPrefixOf?_append,
        List.filterMap_eq_nil_iff.mpr hnone]
    · have hdiverge : Diverge entry.1 label :=
        hfirst label (List.mem_map_of_mem (f := Prod.fst) hmem)
      have hother : ¬ label <+: entry.1 ++ entry.2 :=
        Diverge.not_begins ⟨hdiverge.2, hdiverge.1⟩ _
      rw [List.map_cons, List.filterMap_cons, isPrefixOf?_eq_none hother]
      exact ih hrest hmem

/-- A text of a head and of labelled lines, read at one of the labels. -/
theorem labelled_terminate {head : List (List α)} {entries : List (List α × List α)}
    {label value : List α} (hlabel : label ≠ []) (hhead : ∀ line ∈ head, sep ∉ line)
    (hentries : ∀ entry ∈ entries, sep ∉ entry.1 ++ entry.2)
    (hfree : ∀ line ∈ head, ¬ label <+: line)
    (hpairs : (entries.map Prod.fst).Pairwise Diverge) (hmem : (label, value) ∈ entries) :
    labelled sep label (terminate sep (head ++ entries.map (fun entry => entry.1 ++ entry.2))) =
      [value] := by
  have hlines : ∀ line ∈ head ++ entries.map (fun entry => entry.1 ++ entry.2), sep ∉ line := by
    intro line hline
    rcases List.mem_append.mp hline with hline | hline
    · exact hhead line hline
    · obtain ⟨entry, hentry, rfl⟩ := List.mem_map.mp hline
      exact hentries entry hentry
  have hnone : ∀ line ∈ head, label.isPrefixOf? line = none :=
    fun line hline => isPrefixOf?_eq_none (hfree line hline)
  have hlast : label.isPrefixOf? [] = none :=
    isPrefixOf?_eq_none fun hbegins => hlabel (List.prefix_nil.mp hbegins)
  rw [labelled, splitOn_terminate hlines, List.filterMap_append, List.filterMap_append,
    List.filterMap_eq_nil_iff.mpr hnone, labelled_entries hpairs hmem]
  simp [hlast]

/-- A key and a value are found again, whatever padding stands around them, around
the separator and around both. -/
theorem splitOnce_strip {key value left right text : List α} (hsep : p sep = false)
    (hkey : Stripped p key) (hkey' : key ≠ []) (hfree : sep ∉ key) (hvalue : Stripped p value)
    (hvalue' : value ≠ []) (hleft : Padded p key left) (hright : Padded p value right)
    (h : Padded p (left ++ sep :: right) text) :
    ∃ before after, splitOnce sep (strip p text) = some (before, after) ∧
      strip p before = key ∧ strip p after = value := by
  obtain ⟨outer, inner, rfl, houter, hinner⟩ := hleft
  obtain ⟨inner', outer', rfl, hinner', houter'⟩ := hright
  have hpair : Padded p (key ++ inner ++ sep :: (inner' ++ value)) text :=
    Padded.trans ⟨outer, outer', by simp, houter, houter'⟩ h
  have hstripped : Stripped p (key ++ inner ++ sep :: (inner' ++ value)) := by
    constructor
    · rw [List.append_assoc, List.head?_append_of_ne_nil _ hkey']
      exact hkey.1
    · have hsplit : key ++ inner ++ sep :: (inner' ++ value) =
          (key ++ inner ++ sep :: inner') ++ value := by simp
      rw [hsplit, List.getLast?_append_of_ne_nil _ hvalue']
      exact hvalue.2
  have hfree' : sep ∉ key ++ inner :=
    Padded.not_mem ⟨[], inner, by simp, by simp, hinner⟩ hsep hfree
  refine ⟨key ++ inner, inner' ++ value, ?_, ?_, ?_⟩
  · rw [strip_padded hstripped hpair]
    exact splitOnce_append hfree' _
  · exact strip_padded hkey ⟨[], inner, by simp, by simp, hinner⟩
  · exact strip_padded hvalue ⟨inner', [], by simp, hinner', by simp⟩

end Delimited
