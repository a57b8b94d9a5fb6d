import Mathlib.Data.List.Infix

/-!
Lexical resolution of `/`-separated paths.
A path is read component by component; a dot stays, two dots leave the directory
entered last, and nothing is looked up on a disk. What is left is a location:
how far a relative path climbs above its start, and the names it then enters.
Climbing above the root of an absolute path stays at the root. Joining a path
with a relative one continues the walk, and entering one name gives a child.
-/
namespace LexicalPath

abbrev Name := List Char

inductive Component
  | curDir
  | parentDir
  | normal (name : Name)
  deriving DecidableEq

/-- An empty part, between two separators or at an end, is no component. -/
def Component.ofPart (part : List Char) : Option Component :=
  if part = [] then none
  else if part = ['.'] then some .curDir
  else if part = ['.', '.'] then some .parentDir
  else some (.normal part)

def components (path : List Char) : List Component :=
  (path.splitOn '/').filterMap Component.ofPart

def isAbsolute (path : List Char) : Bool := path.head? == some '/'

/-- Where a path leads: `up` directories above its start and down `names` from
there. An absolute path starts at the root. -/
structure Location where
  absolute : Bool
  up : ℕ
  names : List Name
  rooted : absolute = true → up = 0
  deriving DecidableEq

namespace Location

def child (loc : Location) (name : Name) : Location :=
  { loc with names := loc.names ++ [name] }

def parent (loc : Location) : Location :=
  if loc.names = [] then
    if h : loc.absolute = true then loc
    else { loc with up := loc.up + 1, rooted := fun habs => absurd habs h }
  else { loc with names := loc.names.dropLast }

def enter (loc : Location) : Component → Location
  | .curDir => loc
  | .parentDir => loc.parent
  | .normal name => loc.child name

/-- Walk down a list of names. -/
def descend (loc : Location) (path : List Name) : Location :=
  { loc with names := loc.names ++ path }

@[simp]
theorem descend_nil (loc : Location) : loc.descend [] = loc := by simp [descend]

theorem descend_cons (loc : Location) (name : Name) (path : List Name) :
    loc.descend (name :: path) = (loc.child name).descend path := by simp [descend, child]

@[simp]
theorem parent_child (loc : Location) (name : Name) : (loc.child name).parent = loc := by
  simp [parent, child]

theorem descend_concat (loc : Location) (path : List Name) (name : Name) :
    loc.descend (path ++ [name]) = (loc.descend path).child name := by simp [descend, child]

theorem child_names_ne_nil (loc : Location) (name : Name) : (loc.child name).names ≠ [] := by
  simp [child]

/-- The location is the other one or lies below it. -/
def Within (loc other : Location) : Prop :=
  loc.absolute = other.absolute ∧ loc.up = other.up ∧ other.names <+: loc.names

theorem Within.refl (loc : Location) : loc.Within loc := ⟨rfl, rfl, List.prefix_rfl⟩

/-- Below one directory, one location is in another if its path goes on from there. -/
theorem descend_within_descend_iff (loc : Location) (path other : List Name) :
    (loc.descend path).Within (loc.descend other) ↔ other <+: path := by
  constructor
  · rintro ⟨_, _, hnames⟩
    exact (List.prefix_append_right_inj loc.names).mp hnames
  · intro hpath
    exact ⟨rfl, rfl, (List.prefix_append_right_inj loc.names).mpr hpath⟩

/-- Two directory trees without a common location. -/
def Apart (loc other : Location) : Prop :=
  ∀ inner : Location, ¬ (inner.Within loc ∧ inner.Within other)

theorem child_ne_self (loc : Location) (name : Name) : loc.child name ≠ loc := by
  intro h
  have hnames : loc.names ++ [name] = loc.names := congrArg names h
  simp at hnames

/-- Leaving a directory never arrives at one of its children. -/
theorem child_ne_parent (loc : Location) (name : Name) : loc.parent ≠ loc.child name := by
  intro h
  have hlength : loc.parent.names.length = loc.names.length + 1 := by
    rw [h]
    simp [child]
  have hshorter : loc.parent.names.length ≤ loc.names.length := by
    unfold parent
    split
    · split <;> exact Nat.le_refl _
    · simp
  omega

/-- Different children of one directory are apart. -/
theorem apart_children (loc : Location) {a b : Name} (h : a ≠ b) :
    (loc.child a).Apart (loc.child b) := by
  rintro inner ⟨⟨_, _, ⟨s, hs⟩⟩, ⟨_, _, ⟨t, ht⟩⟩⟩
  have hsame : loc.names ++ ([a] ++ s) = loc.names ++ ([b] ++ t) := by
    rw [← List.append_assoc, ← List.append_assoc]
    exact hs.trans ht.symm
  have htails := List.append_cancel_left hsame
  exact h (List.cons.inj htails).1

end Location

/-- Where the walk begins. -/
def start (path : List Char) : Location := ⟨isAbsolute path, 0, [], fun _ => rfl⟩

def resolve (path : List Char) : Location := (components path).foldl Location.enter (start path)

/-- A path without a separator is a single component, if any. -/
theorem components_of_single {path : List Char} (h : '/' ∉ path) :
    components path = (Component.ofPart path).toList := by
  unfold components
  rw [List.splitOn_eq_singleton h]
  cases hpart : Component.ofPart path <;> simp [hpart]

theorem components_append_sep (base child : List Char) :
    components (base ++ '/' :: child) = components base ++ components child := by
  unfold components
  rw [List.splitOn_append_cons_self, List.filterMap_append]

/-- A separator at the end of the base does not count. -/
theorem components_trailing_sep (base : List Char) :
    components (base ++ ['/']) = components base := by
  rw [components_append_sep]
  simp [components, Component.ofPart]

/-- Continue the walk of `base` with a relative path. -/
theorem resolve_append_sep {base : List Char} (hbase : base ≠ []) (child : List Char) :
    resolve (base ++ '/' :: child) = (components child).foldl Location.enter (resolve base) := by
  have hstart : start (base ++ '/' :: child) = start base := by
    cases base with
    | nil => exact absurd rfl hbase
    | cons c rest => rfl
  unfold resolve
  rw [hstart, components_append_sep, List.foldl_append]

/-- The same when the base brings its separator along. -/
theorem resolve_append_of_sep {base : List Char} (hbase : base.getLast? = some '/')
    (child : List Char) :
    resolve (base ++ child) = (components child).foldl Location.enter (resolve base) := by
  obtain ⟨front, rfl⟩ := List.getLast?_eq_some_iff.mp hbase
  have hstart : start (front ++ ['/'] ++ child) = start (front ++ ['/']) := by
    cases front <;> rfl
  unfold resolve
  rw [hstart, components_trailing_sep, List.append_assoc, List.singleton_append,
    components_append_sep, List.foldl_append]

end LexicalPath
