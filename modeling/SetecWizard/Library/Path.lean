import Mathlib.Data.List.Infix

/-! Paths of a system with drives and both kinds of slashes, and the places they name. A
name is inside a directory when its place lies in or below the directory's place.
-/
namespace SetecWizard.Library

/-- A directory or file: its drive and the names that lead to it. -/
structure Place where
  root : List Char
  names : List (List Char)
deriving DecidableEq

namespace Place

def Within (base place : Place) : Prop := place.root = base.root ∧ base.names <+: place.names

instance (base place : Place) : Decidable (Within base place) := inferInstanceAs (Decidable (_ ∧ _))

def leading (place : Place) : List Place :=
  (place.names.inits.filter (· ≠ [])).map (fun names => ⟨place.root,names⟩)

def isSeparator (c : Char) : Bool := c == '/' || c == '\\'

def splitNames (path : List Char) : List (List Char) := path.splitOnP isSeparator

/-- One name of a path: an empty name and "." stay, ".." goes up, others go down. -/
def descend (names : List (List Char)) (name : List Char) : List (List Char) :=
  if name = [] ∨ name = ['.'] then names
  else if name = ['.','.'] then names.dropLast
  else names ++ [name]

def follow (start : List (List Char)) (path : List Char) : List (List Char) :=
  (splitNames path).foldl descend start

/-- The current drive, and the current directory of each drive. -/
structure Current where
  drive : List Char
  directory : List Char → List (List Char)

/-- A path without its drive starts at the root of the drive or in its directory. -/
def onDrive (current : Current) (drive rest : List Char) : Place where
  root := drive
  names := follow (if rest.head?.any isSeparator then [] else current.directory drive) rest

/-- Two leading slashes name a server, a letter and a colon a drive. -/
def resolve (current : Current) (path : List Char) : Place :=
  match path with
  | [] => onDrive current current.drive []
  | [c] => onDrive current current.drive [c]
  | c :: d :: rest =>
    if isSeparator c && isSeparator d then { root := ['\\','\\'],names := follow [] rest }
    else if c.isAlpha && d == ':' then onDrive current [c.toUpper,':'] rest
    else onDrive current current.drive path

theorem mem_leading {place q : Place} :
    q ∈ leading place ↔ q.root = place.root ∧ q.names ≠ [] ∧ q.names <+: place.names := by
  simp only [leading,List.mem_map,List.mem_filter,List.mem_inits,decide_eq_true_eq]
  constructor
  · rintro ⟨names,⟨before,some_⟩,rfl⟩
    exact ⟨rfl,some_,before⟩
  · rintro ⟨root,some_,before⟩
    exact ⟨q.names,⟨before,some_⟩,by rw [← root]⟩

theorem leading_within {base place q : Place} (inside : Within base place) (member : q ∈ leading place) :
    Within base q ∨ q ∈ leading base := by
  obtain ⟨root,some_,before⟩ := mem_leading.mp member
  rcases List.prefix_or_prefix_of_prefix inside.2 before with deeper | shorter
  · exact .inl ⟨root.trans inside.1,deeper⟩
  · exact .inr (mem_leading.mpr ⟨root.trans inside.1,some_,shorter⟩)

theorem leading_outside {base place q : Place} (outside : ¬ Within base place) (member : q ∈ leading place) :
    ¬ Within base q := by
  obtain ⟨root,_,before⟩ := mem_leading.mp member
  intro inside
  exact outside ⟨root.symm.trans inside.1,inside.2.trans before⟩

end Place

end SetecWizard.Library
