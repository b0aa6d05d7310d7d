import Mathlib.Data.List.Basic
import Mathlib.Data.List.Induction

/-!
# Paths of the operating system

A path is a sequence of bytes that need not be text: it is taken as it is shown,
as characters and the stray bytes between them, and a stray piece is shown as the
replacement character. Two paths are equal if their components are.
-/

namespace Direclaw.Lib

/-- A character of a path, or bytes that are no part of a character. -/
inductive OsChar : Type where
  | char (c : Char)
  | stray (bytes : List UInt8)
deriving DecidableEq, Repr

namespace OsChar

def slash : OsChar := .char '/'

def dot : OsChar := .char '.'

/-- What `Display` writes for it. -/
def shown : OsChar → Char
  | .char c => c
  | .stray _ => '\uFFFD'

end OsChar

/-- `path.display().to_string()`. -/
def displayOs (text : List OsChar) : String := String.ofList (text.map OsChar.shown)

/-- A text as a path. -/
def osText (text : String) : List OsChar := text.toList.map .char

/-- No stray bytes: the path is valid UTF-8. -/
def IsText (text : List OsChar) : Prop := ∀ c ∈ text, c = .char c.shown

theorem osText_displayOs {text : List OsChar} (h : IsText text) : osText (displayOs text) = text := by
  rw [osText, displayOs, String.toList_ofList, List.map_map]
  exact (List.map_congr_left fun c hc => (h c hc).symm).trans (List.map_id text)

/-! ## Components -/

inductive OsComponent : Type where
  | rootDir
  | curDir
  | parentDir
  | normal (name : List OsChar)
deriving DecidableEq, Repr

namespace OsComponent

def text : OsComponent → List OsChar
  | .rootDir => []
  | .curDir => [.dot]
  | .parentDir => [.dot, .dot]
  | .normal name => name

/-- A component behind the root: a name that is a name, or `..`. -/
def Plain : OsComponent → Prop
  | .rootDir => False
  | .curDir => False
  | .parentDir => True
  | .normal name => name ≠ [] ∧ OsChar.slash ∉ name ∧ name ≠ [.dot] ∧ name ≠ [.dot, .dot]

instance (component : OsComponent) : Decidable component.Plain := by
  cases component <;> unfold Plain <;> infer_instance

/-- The component that a piece between separators names; an empty piece and a dot name
nothing. -/
def ofPiece (piece : List OsChar) : Option OsComponent :=
  if piece = [] ∨ piece = [.dot] then none
  else if piece = [.dot, .dot] then some .parentDir
  else some (.normal piece)

variable {component : OsComponent}

theorem ofPiece_text (h : component.Plain) : ofPiece component.text = some component := by
  cases component with
  | rootDir => exact h.elim
  | curDir => exact h.elim
  | parentDir => rfl
  | normal name =>
    obtain ⟨hne, -, hdot, hdots⟩ := h
    rw [text, ofPiece, if_neg (not_or.mpr ⟨hne, hdot⟩), if_neg hdots]

theorem text_ne_nil (h : component.Plain) : component.text ≠ [] := by
  cases component with
  | rootDir => exact h.elim
  | curDir => exact h.elim
  | parentDir => exact List.cons_ne_nil _ _
  | normal name => exact h.1

theorem slash_not_mem_text (h : component.Plain) : OsChar.slash ∉ component.text := by
  cases component with
  | rootDir => exact h.elim
  | curDir => exact h.elim
  | parentDir => decide
  | normal name => exact h.2.1

theorem text_ne_dot (h : component.Plain) : component.text ≠ [.dot] := by
  cases component with
  | rootDir => exact h.elim
  | curDir => exact h.elim
  | parentDir => decide
  | normal name => exact h.2.2.1

end OsComponent

/-! ## Paths -/

abbrev PathBuf := List OsComponent

namespace PathBuf

def parent (path : PathBuf) : Option PathBuf :=
  match path.getLast? with
  | none => none
  | some .rootDir => none
  | some _ => some path.dropLast

def startsWith (path base : PathBuf) : Bool := base.isPrefixOf path

def stripPrefix (path base : PathBuf) : Option PathBuf :=
  if base.isPrefixOf path then some (path.drop base.length) else none

/-- `Path::join`; the dot in front of a path is a component only there. -/
def join (path child : PathBuf) : PathBuf :=
  match child with
  | .rootDir :: _ => child
  | .curDir :: rest => if path = [] then child else path ++ rest
  | _ => path ++ child

def bodyText (components : PathBuf) : List OsChar :=
  [OsChar.slash].intercalate (components.map OsComponent.text)

/-- The path written out. -/
def text : PathBuf → List OsChar
  | .rootDir :: rest => .slash :: bodyText rest
  | components => bodyText components

/-- `Path::new` of a text, in its components. -/
def parse (text : List OsChar) : PathBuf :=
  let pieces := text.splitOn .slash
  let body := pieces.filterMap OsComponent.ofPiece
  if text.head? = some .slash then .rootDir :: body
  else if pieces.head? = some [.dot] then .curDir :: body
  else body

def Absolute (path : PathBuf) : Prop :=
  ∃ rest : PathBuf, path = .rootDir :: rest ∧ ∀ component ∈ rest, component.Plain

theorem parent_of_append (path : PathBuf) {component : OsComponent} (h : component ≠ .rootDir) :
    parent (path ++ [component]) = some path := by
  rw [parent, List.getLast?_append, List.dropLast_concat]
  cases component <;> first | rfl | exact absurd rfl h

theorem parent_eq_some {path above : PathBuf} (h : path.parent = some above) :
    ∃ component, path = above ++ [component] := by
  unfold parent at h
  rcases List.eq_nil_or_concat' path with rfl | ⟨front, component, rfl⟩
  · cases h
  · rw [List.getLast?_concat, List.dropLast_concat] at h
    refine ⟨component, ?_⟩
    cases component <;> simp_all

theorem stripPrefix_append (base rest : PathBuf) : stripPrefix (base ++ rest) base = some rest := by
  rw [stripPrefix, if_pos (List.isPrefixOf_iff_prefix.mpr (List.prefix_append _ _)),
    List.drop_left]

/-! ## A path read back from its text -/

variable {components : PathBuf}

theorem filterMap_ofPiece (hplain : ∀ component ∈ components, component.Plain) :
    (components.map OsComponent.text).filterMap OsComponent.ofPiece = components := by
  induction components with
  | nil => rfl
  | cons component rest ih =>
    rw [List.map_cons,
      List.filterMap_cons_some (OsComponent.ofPiece_text (hplain _ List.mem_cons_self)),
      ih fun other hmem => hplain other (List.mem_cons_of_mem _ hmem)]

theorem splitOn_bodyText (hne : components ≠ [])
    (hplain : ∀ component ∈ components, component.Plain) :
    (bodyText components).splitOn .slash = components.map OsComponent.text := by
  refine List.splitOn_intercalate _ ?_ (by simpa using hne)
  simpa using fun component hmem => OsComponent.slash_not_mem_text (hplain component hmem)

theorem filterMap_splitOn_bodyText (hplain : ∀ component ∈ components, component.Plain) :
    ((bodyText components).splitOn .slash).filterMap OsComponent.ofPiece = components := by
  by_cases hne : components = []
  · rw [hne]
    rfl
  · rw [splitOn_bodyText hne hplain, filterMap_ofPiece hplain]

/-- A relative path is read back from its text. -/
theorem parse_bodyText (hne : components ≠ []) (hplain : ∀ component ∈ components, component.Plain)
    : parse (bodyText components) = components := by
  obtain ⟨component, rest, rfl⟩ := List.exists_cons_of_ne_nil hne
  have hfirst := hplain component List.mem_cons_self
  have hslash : (bodyText (component :: rest)).head? ≠ some .slash := by
    obtain ⟨behind, hbehind⟩ : ∃ behind, bodyText (component :: rest) = component.text ++ behind := by
      cases rest with
      | nil => exact ⟨[], by rw [bodyText, List.append_nil]; exact List.intercalate_singleton⟩
      | cons next rest =>
        refine ⟨[OsChar.slash] ++ bodyText (next :: rest), ?_⟩
        rw [bodyText, List.map_cons, List.map_cons, List.intercalate_cons_cons,
          List.append_assoc]
        rfl
    rw [hbehind, List.head?_append_of_ne_nil _ (OsComponent.text_ne_nil hfirst)]
    intro hhead
    exact OsComponent.slash_not_mem_text hfirst (List.mem_of_mem_head? hhead)
  have hdot : ((bodyText (component :: rest)).splitOn .slash).head? ≠ some [.dot] := by
    rw [splitOn_bodyText hne hplain, List.map_cons, List.head?_cons]
    intro hhead
    exact OsComponent.text_ne_dot hfirst (Option.some.inj hhead)
  rw [parse, if_neg hslash, if_neg hdot, filterMap_splitOn_bodyText hplain]

/-- A path from the root is read back from its text. -/
theorem parse_text_of_absolute {path : PathBuf} (h : path.Absolute) : parse path.text = path := by
  obtain ⟨rest, rfl, hplain⟩ := h
  have hhead : (OsChar.slash :: bodyText rest).head? = some .slash := rfl
  rw [text, parse, if_pos hhead, List.splitOn_cons_eq_if_modifyHead,
    if_pos (beq_self_eq_true _), List.filterMap_cons_none rfl, filterMap_splitOn_bodyText hplain]

theorem text_of_plain (hplain : ∀ component ∈ components, component.Plain) :
    text components = bodyText components := by
  cases components with
  | nil => rfl
  | cons component rest =>
    cases component with
    | rootDir => exact (hplain _ List.mem_cons_self).elim
    | curDir => rfl
    | parentDir => rfl
    | normal name => rfl

theorem join_of_plain (path : PathBuf) {child : PathBuf}
    (hplain : ∀ component ∈ child, component.Plain) : join path child = path ++ child := by
  cases child with
  | nil => rfl
  | cons component rest =>
    cases component with
    | rootDir => exact (hplain _ List.mem_cons_self).elim
    | curDir => exact (hplain _ List.mem_cons_self).elim
    | parentDir => rfl
    | normal name => rfl

end PathBuf

end Direclaw.Lib
