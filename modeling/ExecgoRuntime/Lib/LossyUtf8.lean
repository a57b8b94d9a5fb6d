import Mathlib.Data.List.Basic

/-!
UTF-8 read without errors. Bytes that are not UTF-8 become replacement characters,
one for each longest piece that could have started a character. The reader goes
byte by byte and has at most one character open; a byte that does not continue it
is looked at again as the start of the next one. So the encoding of a text reads as
the text whatever stands before it, and a text that is cut short reads as the
characters that are whole, with one replacement for the one that is cut.
-/
namespace LossyUtf8

/-- A character that is open: how many bytes are missing behind the next one, the bounds
of the next one, and the bits so far. -/
structure Pending where
  missing : ℕ
  low : ℕ
  high : ℕ
  bits : ℕ
  low_ge : 0x80 ≤ low
  high_le : high ≤ 0xBF

/-- The characters that were read, and the one that is open. -/
abbrev Reading := List Char × Option Pending

def replacement : Char := Char.ofNat 0xFFFD

/-- The first byte of a longer character. -/
def lead (b : ℕ) : Option Pending :=
  if 0xC2 ≤ b ∧ b ≤ 0xDF then some ⟨0, 0x80, 0xBF, b - 0xC0, by decide, by decide⟩
  else if b = 0xE0 then some ⟨1, 0xA0, 0xBF, 0, by decide, by decide⟩
  else if b = 0xED then some ⟨1, 0x80, 0x9F, 0xD, by decide, by decide⟩
  else if 0xE1 ≤ b ∧ b ≤ 0xEF then some ⟨1, 0x80, 0xBF, b - 0xE0, by decide, by decide⟩
  else if b = 0xF0 then some ⟨2, 0x90, 0xBF, 0, by decide, by decide⟩
  else if b = 0xF4 then some ⟨2, 0x80, 0x8F, 4, by decide, by decide⟩
  else if 0xF1 ≤ b ∧ b ≤ 0xF3 then some ⟨2, 0x80, 0xBF, b - 0xF0, by decide, by decide⟩
  else none

/-- A byte where a character starts. -/
def start (b : ℕ) : Reading :=
  if b < 0x80 then ([Char.ofNat b], none)
  else
    match lead b with
    | some pending => ([], some pending)
    | none => ([replacement], none)

/-- A byte that continues the open character. -/
def Pending.next (pending : Pending) (b : ℕ) : Reading :=
  match pending.missing with
  | 0 => ([Char.ofNat (pending.bits * 64 + (b - 0x80))], none)
  | missing + 1 =>
    ([], some ⟨missing, 0x80, 0xBF, pending.bits * 64 + (b - 0x80), by decide, by decide⟩)

/-- What becomes of the open character if it is not continued. -/
def finish : Option Pending → List Char
  | none => []
  | some _ => [replacement]

def feed (state : Option Pending) (b : ℕ) : Reading :=
  match state with
  | none => start b
  | some pending =>
    if pending.low ≤ b ∧ b ≤ pending.high then pending.next b
    else (replacement :: (start b).1, (start b).2)

def feedAll (state : Option Pending) : List UInt8 → Reading
  | [] => ([], state)
  | b :: rest =>
    ((feed state b.toNat).1 ++ (feedAll (feed state b.toNat).2 rest).1,
      (feedAll (feed state b.toNat).2 rest).2)

def lossy (bytes : List UInt8) : List Char :=
  (feedAll none bytes).1 ++ finish (feedAll none bytes).2

theorem feedAll_append (state : Option Pending) (xs ys : List UInt8) :
    feedAll state (xs ++ ys) =
      ((feedAll state xs).1 ++ (feedAll (feedAll state xs).2 ys).1,
        (feedAll (feedAll state xs).2 ys).2) := by
  induction xs generalizing state with
  | nil => rfl
  | cons b rest ih => simp [feedAll, ih, List.append_assoc]

theorem feed_of_continues {pending : Pending} {b : ℕ} (hlow : pending.low ≤ b)
    (hhigh : b ≤ pending.high) : feed (some pending) b = pending.next b := by
  rw [feed, if_pos ⟨hlow, hhigh⟩]

/-- A byte that starts a character ends the one that is open. -/
theorem feed_of_starts (state : Option Pending) {b : ℕ} (h : b < 0x80 ∨ 0xC0 ≤ b) :
    feed state b = (finish state ++ (start b).1, (start b).2) := by
  cases state with
  | none => rfl
  | some pending =>
    have hlow := pending.low_ge
    have hhigh := pending.high_le
    rw [feed, if_neg (by omega)]
    rfl

theorem lead_two {v : ℕ} (h : 0x7F < v) (h' : v ≤ 0x7FF) :
    ∃ pending, start (v / 64 % 0x20 + 0xC0) = ([], some pending) ∧ pending.missing = 0 ∧
      pending.bits = v / 64 ∧ pending.low ≤ v % 0x40 + 0x80 ∧ v % 0x40 + 0x80 ≤ pending.high := by
  have hlead : lead (v / 64 % 0x20 + 0xC0) =
      some ⟨0, 0x80, 0xBF, v / 64 % 0x20 + 0xC0 - 0xC0, by decide, by decide⟩ := by
    rw [lead, if_pos (by omega)]
  refine ⟨_, by rw [start, if_neg (by omega), hlead], rfl, ?_, ?_, ?_⟩ <;> simp only <;> omega

theorem lead_three {v : ℕ} (h : 0x7FF < v) (h' : v ≤ 0xFFFF)
    (hscalar : v < 0xD800 ∨ 0xDFFF < v) :
    ∃ pending, start (v / 4096 % 0x10 + 0xE0) = ([], some pending) ∧ pending.missing = 1 ∧
      pending.bits = v / 4096 ∧ pending.low ≤ v / 64 % 0x40 + 0x80 ∧
      v / 64 % 0x40 + 0x80 ≤ pending.high := by
  have hstart : ∀ pending, lead (v / 4096 % 0x10 + 0xE0) = some pending →
      start (v / 4096 % 0x10 + 0xE0) = ([], some pending) := by
    intro pending hlead
    rw [start, if_neg (by omega), hlead]
  by_cases hfirst : v / 4096 = 0
  · refine ⟨_, hstart _ (by rw [lead, if_neg (by omega), if_pos (by omega)]), rfl, ?_, ?_, ?_⟩ <;>
      simp only <;> omega
  by_cases hsurrogate : v / 4096 = 0xD
  · refine ⟨_, hstart _ (by rw [lead, if_neg (by omega), if_neg (by omega), if_pos (by omega)]),
      rfl, ?_, ?_, ?_⟩ <;> simp only <;> omega
  · refine ⟨_, hstart _ (by rw [lead, if_neg (by omega), if_neg (by omega), if_neg (by omega),
      if_pos (by omega)]), rfl, ?_, ?_, ?_⟩ <;> simp only <;> omega

theorem lead_four {v : ℕ} (h : 0xFFFF < v) (h' : v < 0x110000) :
    ∃ pending, start (v / 262144 % 0x08 + 0xF0) = ([], some pending) ∧ pending.missing = 2 ∧
      pending.bits = v / 262144 ∧ pending.low ≤ v / 4096 % 0x40 + 0x80 ∧
      v / 4096 % 0x40 + 0x80 ≤ pending.high := by
  have hstart : ∀ pending, lead (v / 262144 % 0x08 + 0xF0) = some pending →
      start (v / 262144 % 0x08 + 0xF0) = ([], some pending) := by
    intro pending hlead
    rw [start, if_neg (by omega), hlead]
  by_cases hfirst : v / 262144 = 0
  · refine ⟨_, hstart _ (by rw [lead, if_neg (by omega), if_neg (by omega), if_neg (by omega),
      if_neg (by omega), if_pos (by omega)]), rfl, ?_, ?_, ?_⟩ <;> simp only <;> omega
  by_cases hlast : v / 262144 = 4
  · refine ⟨_, hstart _ (by rw [lead, if_neg (by omega), if_neg (by omega), if_neg (by omega),
      if_neg (by omega), if_neg (by omega), if_pos (by omega)]), rfl, ?_, ?_, ?_⟩ <;>
      simp only <;> omega
  · refine ⟨_, hstart _ (by rw [lead, if_neg (by omega), if_neg (by omega), if_neg (by omega),
      if_neg (by omega), if_neg (by omega), if_neg (by omega), if_pos (by omega)]), rfl, ?_, ?_,
      ?_⟩ <;> simp only <;> omega

/-- The bits of an open character after some more bytes. -/
def bitsAfter (bits : ℕ) (bytes : List UInt8) : ℕ :=
  bytes.foldl (fun bits b => bits * 64 + (b.toNat - 0x80)) bits

/-- An open character stays open until its last byte. -/
theorem feedAll_pending {pending : Pending} {b : UInt8} {tail : List UInt8}
    (hmissing : pending.missing = tail.length) (hlow : pending.low ≤ b.toNat)
    (hhigh : b.toNat ≤ pending.high) (htail : ∀ b ∈ tail, 0x80 ≤ b.toNat ∧ b.toNat ≤ 0xBF) :
    feedAll (some pending) (b :: tail) =
        ([Char.ofNat (bitsAfter pending.bits (b :: tail))], none) ∧
      ∀ k ≤ tail.length, ∃ p, feedAll (some pending) ((b :: tail).take k) = ([], some p) := by
  induction tail generalizing pending b with
  | nil =>
    have hnext : pending.next b.toNat =
        ([Char.ofNat (pending.bits * 64 + (b.toNat - 0x80))], none) := by
      rw [Pending.next, hmissing]
      rfl
    refine ⟨by simp [feedAll, feed_of_continues hlow hhigh, hnext, bitsAfter], fun k hk => ?_⟩
    rw [Nat.le_zero.mp hk]
    exact ⟨pending, rfl⟩
  | cons b' tail ih =>
    obtain ⟨next, hnext, hmissing', hlow', hhigh', hbits⟩ : ∃ next : Pending,
        pending.next b.toNat = ([], some next) ∧ next.missing = tail.length ∧ next.low = 0x80 ∧
          next.high = 0xBF ∧ next.bits = pending.bits * 64 + (b.toNat - 0x80) := by
      rw [Pending.next, hmissing]
      exact ⟨_, rfl, rfl, rfl, rfl, rfl⟩
    obtain ⟨hb', htail'⟩ := List.forall_mem_cons.mp htail
    obtain ⟨hwhole, hopen⟩ := ih hmissing' (hlow' ▸ hb'.1) (hhigh' ▸ hb'.2) htail'
    refine ⟨?_, fun k hk => ?_⟩
    · rw [feedAll, feed_of_continues hlow hhigh, hnext, hwhole, hbits, List.nil_append]
      simp only [bitsAfter, List.foldl_cons]
    cases k with
    | zero => exact ⟨pending, rfl⟩
    | succ k =>
      obtain ⟨p, hp⟩ := hopen k (Nat.le_of_succ_le_succ hk)
      exact ⟨p, by rw [List.take_succ_cons, feedAll, feed_of_continues hlow hhigh, hnext, hp]; rfl⟩

/-- The bytes are read as the character, and only the last one completes it. -/
structure Completes (c : Char) (bytes : List UInt8) : Prop where
  starts : ∃ first tail, bytes = first :: tail ∧ (first.toNat < 0x80 ∨ 0xC0 ≤ first.toNat)
  whole : feedAll none bytes = ([c], none)
  opened : ∀ k, 0 < k → k < bytes.length → ∃ p, feedAll none (bytes.take k) = ([], some p)

theorem completes_of_lead {c : Char} {first b : UInt8} {tail : List UInt8} {pending : Pending}
    (hfirst : 0xC0 ≤ first.toNat) (hstart : start first.toNat = ([], some pending))
    (hmissing : pending.missing = tail.length) (hlow : pending.low ≤ b.toNat)
    (hhigh : b.toNat ≤ pending.high) (htail : ∀ b ∈ tail, 0x80 ≤ b.toNat ∧ b.toNat ≤ 0xBF)
    (hbits : bitsAfter pending.bits (b :: tail) = c.toNat) :
    Completes c (first :: b :: tail) := by
  obtain ⟨hwhole, hopen⟩ := feedAll_pending hmissing hlow hhigh htail
  refine ⟨⟨first, _, rfl, .inr hfirst⟩, ?_, fun k hpos hlt => ?_⟩
  · rw [feedAll, feed, hstart, hwhole, hbits, Char.ofNat_toNat]
    rfl
  · obtain ⟨k, rfl⟩ := Nat.exists_eq_succ_of_ne_zero (Nat.pos_iff_ne_zero.mp hpos)
    obtain ⟨p, hp⟩ := hopen k (Nat.le_of_lt_succ (Nat.lt_of_succ_lt_succ hlt))
    exact ⟨p, by rw [List.take_succ_cons, feedAll, feed, hstart, hp]; rfl⟩

theorem toNat_ofNat {n : ℕ} (h : n < 0x100) : (UInt8.ofNat n).toNat = n := by
  rw [UInt8.toNat_ofNat']
  exact Nat.mod_eq_of_lt h

theorem completes (c : Char) : Completes c (String.utf8EncodeChar c) := by
  have hscalar : c.toNat < 0xD800 ∨ 0xDFFF < c.toNat ∧ c.toNat < 0x110000 := c.valid
  have hval : c.val.toNat = c.toNat := rfl
  unfold String.utf8EncodeChar
  simp only [hval]
  split
  · have hbyte : (UInt8.ofNat c.toNat).toNat = c.toNat := toNat_ofNat (by omega)
    refine ⟨⟨_, _, rfl, .inl (by omega)⟩, ?_, fun k hpos hlt => ?_⟩
    · rw [feedAll, feed, hbyte, start, if_pos (by omega), Char.ofNat_toNat]
      rfl
    · simp only [List.length_singleton] at hlt
      omega
  have htail : (UInt8.ofNat (c.toNat % 0x40 + 0x80)).toNat = c.toNat % 0x40 + 0x80 :=
    toNat_ofNat (by omega)
  have htail' : (UInt8.ofNat (c.toNat / 64 % 0x40 + 0x80)).toNat = c.toNat / 64 % 0x40 + 0x80 :=
    toNat_ofNat (by omega)
  have htail'' : (UInt8.ofNat (c.toNat / 4096 % 0x40 + 0x80)).toNat =
      c.toNat / 4096 % 0x40 + 0x80 := toNat_ofNat (by omega)
  split
  · obtain ⟨pending, hstart, hmissing, hbits, hlow, hhigh⟩ :=
      lead_two (v := c.toNat) (by omega) (by omega)
    have hfirst : (UInt8.ofNat (c.toNat / 64 % 0x20 + 0xC0)).toNat = c.toNat / 64 % 0x20 + 0xC0 :=
      toNat_ofNat (by omega)
    refine completes_of_lead (by omega) (by rwa [hfirst]) hmissing (by rwa [htail])
      (by rwa [htail]) (by simp) ?_
    simp only [bitsAfter, List.foldl_cons, List.foldl_nil, htail, hbits]
    omega
  split
  · obtain ⟨pending, hstart, hmissing, hbits, hlow, hhigh⟩ :=
      lead_three (v := c.toNat) (by omega) (by omega) (by omega)
    have hfirst : (UInt8.ofNat (c.toNat / 4096 % 0x10 + 0xE0)).toNat =
        c.toNat / 4096 % 0x10 + 0xE0 := toNat_ofNat (by omega)
    refine completes_of_lead (by omega) (by rwa [hfirst]) hmissing (by rwa [htail'])
      (by rwa [htail']) ?_ ?_
    · simp only [List.mem_singleton, forall_eq, htail]
      omega
    · simp only [bitsAfter, List.foldl_cons, List.foldl_nil, htail, htail', hbits]
      omega
  · obtain ⟨pending, hstart, hmissing, hbits, hlow, hhigh⟩ :=
      lead_four (v := c.toNat) (by omega) (by omega)
    have hfirst : (UInt8.ofNat (c.toNat / 262144 % 0x08 + 0xF0)).toNat =
        c.toNat / 262144 % 0x08 + 0xF0 := toNat_ofNat (by omega)
    refine completes_of_lead (by omega) (by rwa [hfirst]) hmissing (by rwa [htail''])
      (by rwa [htail'']) ?_ ?_
    · simp only [List.mem_cons, List.not_mem_nil, or_false, forall_eq_or_imp, forall_eq, htail,
        htail']
      omega
    · simp only [bitsAfter, List.foldl_cons, List.foldl_nil, htail, htail', htail'', hbits]
      omega

/-- The bytes of a text. -/
def encode (text : List Char) : List UInt8 := text.flatMap String.utf8EncodeChar

theorem encode_cons (c : Char) (text : List Char) :
    encode (c :: text) = String.utf8EncodeChar c ++ encode text := rfl

theorem feedAll_of_starts (state : Option Pending) {b : UInt8} (bytes : List UInt8)
    (h : b.toNat < 0x80 ∨ 0xC0 ≤ b.toNat) :
    feedAll state (b :: bytes) =
      (finish state ++ (feedAll none (b :: bytes)).1, (feedAll none (b :: bytes)).2) := by
  rw [feedAll, feedAll, feed_of_starts state h, List.append_assoc]
  rfl

/-- The bytes of a character are read as it, whatever stands before them. -/
theorem feedAll_encodeChar (state : Option Pending) (c : Char) :
    feedAll state (String.utf8EncodeChar c) = (finish state ++ [c], none) := by
  obtain ⟨⟨first, tail, hbytes, hfirst⟩, hwhole, _⟩ := completes c
  rw [hbytes] at hwhole ⊢
  rw [feedAll_of_starts state tail hfirst, hwhole]

/-- A part of the bytes of a character leaves it open. -/
theorem feedAll_take_encodeChar (state : Option Pending) (c : Char) {k : ℕ} (hpos : 0 < k)
    (hlt : k < c.utf8Size) :
    ∃ p, feedAll state ((String.utf8EncodeChar c).take k) = (finish state, some p) := by
  obtain ⟨⟨first, tail, hbytes, hfirst⟩, _, hopen⟩ := completes c
  obtain ⟨p, hp⟩ := hopen k hpos (by rwa [String.length_utf8EncodeChar])
  obtain ⟨k, rfl⟩ := Nat.exists_eq_succ_of_ne_zero (Nat.pos_iff_ne_zero.mp hpos)
  rw [hbytes, List.take_succ_cons] at hp ⊢
  exact ⟨p, by rw [feedAll_of_starts state _ hfirst, hp, List.append_nil]⟩

/-- The characters of the text whose bytes fit. -/
def fitting : ℕ → List Char → List Char
  | _, [] => []
  | room, c :: text => if c.utf8Size ≤ room then c :: fitting (room - c.utf8Size) text else []

/-- What is left of the room is taken by a part of the next character. -/
def cut (room : ℕ) (text : List Char) : Bool :=
  decide ((encode (fitting room text)).length < min room (encode text).length)

theorem fitting_prefix (room : ℕ) (text : List Char) : fitting room text <+: text := by
  induction text generalizing room with
  | nil => exact List.nil_prefix
  | cons c text ih =>
    unfold fitting
    split
    · exact (List.prefix_cons_inj c).mpr (ih _)
    · exact List.nil_prefix

theorem length_encode_fitting_le (room : ℕ) (text : List Char) :
    (encode (fitting room text)).length ≤ room := by
  induction text generalizing room with
  | nil => exact Nat.zero_le _
  | cons c text ih =>
    unfold fitting
    split
    · rename_i hroom
      have hrest := ih (room - c.utf8Size)
      rw [encode_cons, List.length_append, String.length_utf8EncodeChar]
      omega
    · exact Nat.zero_le _

/-- The next character does not fit. -/
theorem room_lt_of_fitting {room : ℕ} {text rest : List Char} {c : Char}
    (h : text = fitting room text ++ c :: rest) :
    room < (encode (fitting room text ++ [c])).length := by
  induction text generalizing room with
  | nil => simp [fitting] at h
  | cons d text ih =>
    unfold fitting at h ⊢
    split at h
    · rename_i hroom
      rw [if_pos hroom]
      rw [List.cons_append, List.cons.injEq] at h
      have hlt := ih h.2
      rw [List.cons_append, encode_cons, List.length_append, String.length_utf8EncodeChar]
      omega
    · rename_i hroom
      rw [if_neg hroom]
      rw [List.nil_append, List.cons.injEq] at h
      rw [List.nil_append, encode_cons, List.length_append, String.length_utf8EncodeChar, ← h.1]
      omega

theorem cut_cons_of_le {room : ℕ} {c : Char} (text : List Char) (h : c.utf8Size ≤ room) :
    cut room (c :: text) = cut (room - c.utf8Size) text := by
  unfold cut
  rw [fitting, if_pos h, encode_cons, encode_cons, List.length_append, List.length_append,
    String.length_utf8EncodeChar, decide_eq_decide]
  omega

theorem cut_cons_of_lt {room : ℕ} {c : Char} (text : List Char) (h : room < c.utf8Size) :
    cut room (c :: text) = decide (0 < room) := by
  unfold cut
  rw [fitting, if_neg (Nat.not_le.mpr h), encode_cons, List.length_append,
    String.length_utf8EncodeChar, decide_eq_decide]
  change 0 < _ ↔ _
  omega

/-- A text that is cut to a number of bytes, whatever stands before it. -/
theorem feedAll_take_encode (state : Option Pending) (room : ℕ) (text : List Char) :
    (feedAll state ((encode text).take room)).1 ++
        finish (feedAll state ((encode text).take room)).2 =
      finish state ++ (fitting room text ++ if cut room text then [replacement] else []) := by
  induction text generalizing state room with
  | nil => simp [encode, feedAll, fitting, cut]
  | cons c text ih =>
    have hlength := String.length_utf8EncodeChar c
    by_cases hroom : c.utf8Size ≤ room
    · have htake : (encode (c :: text)).take room =
          String.utf8EncodeChar c ++ (encode text).take (room - c.utf8Size) := by
        rw [encode_cons, List.take_append, hlength, List.take_of_length_le (by omega)]
      rw [htake, feedAll_append, feedAll_encodeChar, List.append_assoc, List.append_assoc, ih,
        cut_cons_of_le text hroom, fitting, if_pos hroom]
      rfl
    · have hlt := Nat.not_le.mp hroom
      have htake : (encode (c :: text)).take room = (String.utf8EncodeChar c).take room := by
        rw [encode_cons, List.take_append_of_le_length (by omega)]
      rw [htake, cut_cons_of_lt text hlt, fitting, if_neg hroom, List.nil_append]
      by_cases hpos : 0 < room
      · obtain ⟨p, hp⟩ := feedAll_take_encodeChar state c hpos hlt
        rw [hp, decide_eq_true hpos]
        rfl
      · simp [feedAll, Nat.eq_zero_of_not_pos hpos]

theorem feedAll_encode (state : Option Pending) (text : List Char) :
    (feedAll state (encode text)).1 ++ finish (feedAll state (encode text)).2 =
      finish state ++ text := by
  induction text generalizing state with
  | nil => simp [encode, feedAll]
  | cons c text ih =>
    rw [encode_cons, feedAll_append, feedAll_encodeChar, List.append_assoc, List.append_assoc, ih]
    rfl

/-- A text comes back as it was. -/
theorem lossy_encode (text : List Char) : lossy (encode text) = text := feedAll_encode none text

/-- Bytes are read as before in front of a text, which is read up to where it is cut. -/
theorem lossy_append_take (bytes : List UInt8) (room : ℕ) (text : List Char) :
    lossy (bytes ++ (encode text).take room) =
      lossy bytes ++ (fitting room text ++ if cut room text then [replacement] else []) := by
  rw [lossy, feedAll_append, List.append_assoc, feedAll_take_encode, lossy, List.append_assoc]

end LossyUtf8
