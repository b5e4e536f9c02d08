import Mathlib.Data.List.Basic

/-!
# Pure POSIX paths

A path as Python's `PurePosixPath` keeps it: a root and a list of components. A component is never
empty, never `.` and holds no `/`, so two texts that name the same path give equal values; `..` is
a component like any other. `join` is the operator `/`: a right-hand side with a root replaces what
stands on its left (`join_eq_join_iff` says when two joins meet).
-/

namespace Lib

/-- The text is a component of a path. -/
def IsComponent (text : List Char) : Prop := text ≠ [] ∧ text ≠ ['.'] ∧ '/' ∉ text

instance (text : List Char) : Decidable (IsComponent text) :=
  inferInstanceAs (Decidable (_ ∧ _ ∧ _))

structure Component where
  text : List Char
  ok : IsComponent text
  deriving DecidableEq

/-- Exactly two leading slashes are a root of their own. -/
inductive Root where
  | relative
  | slash
  | slashes
  deriving DecidableEq

def Root.text : Root → String
  | .relative => ""
  | .slash => "/"
  | .slashes => "//"

structure PosixPath where
  root : Root
  parts : List Component
  deriving DecidableEq

namespace PosixPath

/-- `str.split("/")`. -/
def split : List Char → List (List Char)
  | [] => [[]]
  | c :: cs => if c = '/' then [] :: split cs else (split cs).modifyHead (c :: ·)

def component (text : List Char) : Option Component :=
  if ok : IsComponent text then some ⟨text, ok⟩ else none

/-- `posixpath.splitroot`. -/
def splitRoot : List Char → Root × List Char
  | '/' :: '/' :: '/' :: cs => (.slash, '/' :: '/' :: cs)
  | '/' :: '/' :: cs => (.slashes, cs)
  | '/' :: cs => (.slash, cs)
  | cs => (.relative, cs)

/-- `PurePosixPath(text)`. -/
def parse (text : List Char) : PosixPath :=
  ⟨(splitRoot text).1, (split (splitRoot text).2).filterMap component⟩

/-- `path / text`. -/
def join (p : PosixPath) (text : List Char) : PosixPath :=
  if (parse text).root = .relative then ⟨p.root, p.parts ++ (parse text).parts⟩ else parse text

/-- The path is the directory or lies below it. -/
def isUnder (dir p : PosixPath) : Bool := p.root = dir.root && dir.parts.isPrefixOf p.parts

/-- `str(path)`. -/
def text (p : PosixPath) : String :=
  if p = ⟨.relative, []⟩ then "."
  else p.root.text ++ "/".intercalate (p.parts.map fun c => String.ofList c.text)

variable {p q : PosixPath} {s t : List Char}

theorem split_of_no_slash (h : '/' ∉ s) : split s = [s] := by
  induction s with
  | nil => rfl
  | cons c cs ih =>
    rw [List.mem_cons, not_or] at h
    rw [split, if_neg (Ne.symm h.1), ih h.2]
    rfl

theorem splitRoot_of_no_slash (h : '/' ∉ s) : splitRoot s = (.relative, s) := by
  unfold splitRoot
  split
  all_goals first | rfl | simp at h

/-- A component is a relative path of its own. -/
theorem parse_component (c : Component) : parse c.text = ⟨.relative, [c]⟩ := by
  obtain ⟨text, ok⟩ := c
  unfold parse
  rw [splitRoot_of_no_slash ok.2.2, split_of_no_slash ok.2.2]
  simp [component, ok]

theorem join_component (p : PosixPath) (c : Component) :
    p.join c.text = ⟨p.root, p.parts ++ [c]⟩ := by
  unfold join
  rw [parse_component, if_pos rfl]

theorem join_relative (p : PosixPath) (h : (parse s).root = .relative) :
    p.join s = ⟨p.root, p.parts ++ (parse s).parts⟩ := if_pos h

theorem join_rooted (p : PosixPath) (h : (parse s).root ≠ .relative) : p.join s = parse s := if_neg h

/-- Below different directories the same name is a different path. -/
theorem join_component_inj {c : Component} : p.join c.text = q.join c.text ↔ p = q := by
  rw [join_component, join_component, mk.injEq, List.append_cancel_right_eq]
  exact ⟨fun ⟨hroot, hparts⟩ => by cases p; cases q; cases hroot; cases hparts; rfl,
    fun h => h ▸ ⟨rfl, rfl⟩⟩

/-- **Two joins meet.** A text joins like a component exactly where it is, as a path, that component
alone, or has a root and is the joined path itself. -/
theorem join_eq_join_iff {c : Component} :
    p.join s = p.join c.text ↔
      parse s = ⟨.relative, [c]⟩ ∨ (parse s).root ≠ .relative ∧ parse s = p.join c.text := by
  by_cases hroot : (parse s).root = .relative
  · have hparts : p.join s = p.join c.text ↔ (parse s).parts = [c] := by
      rw [join_relative p hroot, join_component, mk.injEq, List.append_cancel_left_eq]
      exact and_iff_right rfl
    rw [hparts]
    refine ⟨fun h => .inl ?_, ?_⟩
    · rw [← hroot, ← h]
    · rintro (h | ⟨h, -⟩)
      · rw [h]
      · exact absurd hroot h
  · rw [join_rooted p hroot]
    refine ⟨fun h => .inr ⟨hroot, h⟩, ?_⟩
    rintro (h | ⟨-, h⟩)
    · exact absurd (congrArg root h) hroot
    · exact h

end PosixPath

end Lib
