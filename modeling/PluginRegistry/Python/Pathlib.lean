import Mathlib.Data.List.Induction
import PluginRegistry.Python.FileSystem
import PluginRegistry.Python.Text

namespace PluginRegistry

/-- `PurePosixPath(text).parts` without the root. -/
def posixParts (text : String) : Path :=
  (splitText '/' text).filter fun part => !part.isEmpty && part ≠ "."

def isPosixAbsolute (text : String) : Bool :=
  text.toList.head? = some '/'

/-- `PureWindowsPath(name).drive != ""`: two slashes, or a character with its colon. -/
def hasWindowsDrive (name : String) : Bool :=
  let isSep := fun c : Char => c = '/' || c = '\\'
  match name.toList with
  | first :: second :: _ => if isSep first then isSep second else second = ':'
  | _ => false

/-- `name.replace("\\", "/")`. -/
def forwardSlashes (name : String) : String :=
  String.ofList (name.toList.map fun c => if c = '\\' then '/' else c)

def asPosix (text : String) : String :=
  if (posixParts text).isEmpty then "." else String.intercalate "/" (posixParts text)

def posixName (text : String) : String :=
  (posixParts text).getLast?.getD ""

/-- `PurePosixPath(text).suffix`: from the last dot on, unless the name starts
or ends with it. -/
def posixSuffix (text : String) : String :=
  let name := (posixName text).toList
  let extension := (name.reverse.takeWhile (· ≠ '.')).reverse
  if extension.length + 1 < name.length && !extension.isEmpty then String.ofList ('.' :: extension)
  else ""

def IsPart (part : String) : Prop :=
  '/' ∉ part.toList ∧ part ≠ "" ∧ part ≠ "."

theorem posixParts_valid {text part : String} (h : part ∈ posixParts text) : IsPart part := by
  obtain ⟨hsplit, hkept⟩ := List.mem_filter.mp h
  obtain ⟨chars, hchars, rfl⟩ := List.mem_map.mp hsplit
  rw [Bool.and_eq_true, Bool.not_eq_true', decide_eq_true_eq] at hkept
  refine ⟨?_, by simpa using hkept.1, hkept.2⟩
  rw [String.toList_ofList]
  exact not_mem_of_mem_splitOn hchars

theorem posixParts_join {parts : Path} (h : ∀ part ∈ parts, IsPart part) :
    posixParts (String.intercalate "/" parts) = parts := by
  cases parts with
  | nil => decide
  | cons first rest =>
    rw [posixParts, splitText_intercalate rfl (by simp) fun part hp => (h part hp).1,
      List.filter_eq_self]
    intro part hp
    simpa using (h part hp).2

theorem posixParts_cons (l : List Char) :
    posixParts (String.ofList ('/' :: l)) = posixParts (String.ofList l) := by
  have hsplit : ('/' :: l).splitOn '/' = [] :: l.splitOn '/' := by
    simp [List.splitOn_cons_eq_if_modifyHead]
  simp only [posixParts, splitText, String.toList_ofList, hsplit, List.map_cons]
  rfl

theorem posixParts_concat (l : List Char) :
    posixParts (String.ofList (l ++ ['/'])) = posixParts (String.ofList l) := by
  simp only [posixParts, splitText, String.toList_ofList, List.splitOn_append_cons_self,
    List.splitOn_nil, List.map_append, List.filter_append]
  exact List.append_nil _

/-- Slashes at either end add no parts. -/
theorem posixParts_strip (text : String) :
    posixParts (stripBy (· = '/') text) = posixParts text := by
  have hleft : posixParts (lstripBy (· = '/') text) = posixParts text := by
    rw [lstripBy]
    conv_rhs => rw [← String.ofList_toList (s := text)]
    induction text.toList with
    | nil => rfl
    | cons c l ih =>
      by_cases hc : c = '/'
      · subst hc
        rw [posixParts_cons, ← ih]
        rfl
      · rw [List.dropWhile_cons_of_neg (by simpa using hc)]
  have hright : ∀ s : String, posixParts (rstripBy (· = '/') s) = posixParts s := by
    intro s
    rw [rstripBy]
    conv_rhs => rw [← String.ofList_toList (s := s)]
    induction s.toList using List.reverseRecOn with
    | nil => rfl
    | append_singleton l c ih =>
      rw [List.reverse_append, List.reverse_singleton, List.singleton_append]
      by_cases hc : c = '/'
      · subst hc
        rw [posixParts_concat, ← ih]
        rfl
      · rw [List.dropWhile_cons_of_neg (by simpa using hc)]
        simp
  rw [stripBy, hright, hleft]

end PluginRegistry
