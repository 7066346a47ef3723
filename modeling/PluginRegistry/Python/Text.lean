import Mathlib.Data.List.Basic
import Mathlib.Data.String.Basic

namespace PluginRegistry

/-- `str.isspace` for one character. -/
def isSpace (c : Char) : Bool :=
  let n := c.toNat
  (9 ≤ n && n ≤ 13) || (28 ≤ n && n ≤ 32) || n = 0x85 || n = 0xa0 || n = 0x1680 ||
    (0x2000 ≤ n && n ≤ 0x200a) || n = 0x2028 || n = 0x2029 || n = 0x202f || n = 0x205f ||
    n = 0x3000

/-- `s.lstrip(chars)` for the characters that satisfy a test. -/
def lstripBy (p : Char → Bool) (s : String) : String :=
  String.ofList (s.toList.dropWhile p)

/-- `s.rstrip(chars)` for the characters that satisfy a test. -/
def rstripBy (p : Char → Bool) (s : String) : String :=
  String.ofList (s.toList.reverse.dropWhile p).reverse

/-- `s.strip(chars)`. -/
def stripBy (p : Char → Bool) (s : String) : String :=
  rstripBy p (lstripBy p s)

/-- `s.strip()`. -/
def strip (s : String) : String :=
  stripBy isSpace s

/-- `s[:n]`. -/
def textPrefix (n : Nat) (s : String) : String :=
  String.ofList (s.toList.take n)

/-- `s.split(separator)` for a separator of one character. -/
def splitText (separator : Char) (s : String) : List String :=
  (s.toList.splitOn separator).map String.ofList

theorem not_mem_of_mem_splitOn {separator : Char} {chars part : List Char}
    (h : part ∈ chars.splitOn separator) : separator ∉ part := by
  induction chars generalizing part with
  | nil => simp_all
  | cons c chars ih =>
    rw [List.splitOn_cons_eq_if_modifyHead] at h
    by_cases hc : c = separator
    · rw [if_pos (by simpa using hc)] at h
      rcases List.mem_cons.mp h with rfl | h
      · exact List.not_mem_nil
      · exact ih h
    · rw [if_neg (by simpa using hc)] at h
      cases hsplit : chars.splitOn separator with
      | nil => simp [hsplit] at h
      | cons first rest =>
        rw [hsplit, List.modifyHead_cons] at h
        rcases List.mem_cons.mp h with rfl | h
        · have hfirst := ih (hsplit ▸ List.mem_cons_self)
          simp [Ne.symm hc, hfirst]
        · exact ih (hsplit ▸ List.mem_cons_of_mem _ h)

/-- Splitting undoes joining where no part holds the separator. -/
theorem splitText_intercalate {separator : Char} {joint : String} {parts : List String}
    (hjoint : joint.toList = [separator]) (hne : parts ≠ [])
    (h : ∀ part ∈ parts, separator ∉ part.toList) :
    splitText separator (String.intercalate joint parts) = parts := by
  have hno : ∀ chars ∈ parts.map String.toList, separator ∉ chars := by
    intro chars hchars
    obtain ⟨part, hp, rfl⟩ := List.mem_map.mp hchars
    exact h part hp
  rw [splitText, String.toList_intercalate, hjoint,
    List.splitOn_intercalate separator hno (by simpa using hne), List.map_map]
  simp

/-- `needle in s`. -/
def textContains (needle s : String) : Bool :=
  s.toList.tails.any needle.toList.isPrefixOf

/-- `s.startswith(prefix)`. -/
def startsWith (start s : String) : Bool :=
  start.toList.isPrefixOf s.toList

/-- `s.endswith(suffix)`. -/
def endsWith (ending s : String) : Bool :=
  ending.toList.isSuffixOf s.toList

/-- `s.removesuffix(suffix)`. -/
def removeSuffix (ending s : String) : String :=
  if endsWith ending s then
    String.ofList (s.toList.take (s.toList.length - ending.toList.length))
  else s

def afterLastFrom (separator : List Char) : List Char → Option (List Char)
  | [] => none
  | c :: rest =>
    (afterLastFrom separator rest).or
      (if separator.isPrefixOf (c :: rest) then some ((c :: rest).drop separator.length) else none)

/-- `s.rsplit(separator, 1)[1]`, for a separator whose occurrences do not overlap. -/
def afterLast (separator s : String) : Option String :=
  (afterLastFrom separator.toList s.toList).map String.ofList

def splitOnceFrom (separator : List Char) : List Char → Option (List Char × List Char)
  | [] => none
  | c :: rest =>
    if separator.isPrefixOf (c :: rest) then some ([], (c :: rest).drop separator.length)
    else (splitOnceFrom separator rest).map fun parts => (c :: parts.1, parts.2)

/-- `s.split(separator, 1)`, for a text that holds the separator. -/
def splitOnce (separator s : String) : Option (String × String) :=
  (splitOnceFrom separator.toList s.toList).map fun parts =>
    (String.ofList parts.1, String.ofList parts.2)

theorem splitOnceFrom_append {c : Char} {separator front : List Char} (h : c ∉ front)
    (rest : List Char) :
    splitOnceFrom (c :: separator) (front ++ (c :: separator ++ rest)) = some (front, rest) := by
  induction front with
  | nil => simp [splitOnceFrom]
  | cons d front ih =>
    obtain ⟨hd, hfront⟩ := not_or.mp (List.mem_cons.not.mp h)
    have hno : ¬ (c :: separator).isPrefixOf
        (d :: (front ++ (c :: separator ++ rest))) = true := by
      simp [hd]
    rw [List.cons_append, splitOnceFrom, if_neg hno, ih hfront, Option.map_some]

theorem splitOnceFrom_none {c : Char} {separator chars : List Char} (h : c ∉ chars) :
    splitOnceFrom (c :: separator) chars = none := by
  induction chars with
  | nil => rfl
  | cons d chars ih =>
    obtain ⟨hd, hchars⟩ := not_or.mp (List.mem_cons.not.mp h)
    have hno : ¬ (c :: separator).isPrefixOf (d :: chars) = true := by
      simp [hd]
    rw [splitOnceFrom, if_neg hno, ih hchars, Option.map_none]

theorem splitOnce_append {separator front : String} {c : Char} {chars : List Char}
    (hseparator : separator.toList = c :: chars) (h : c ∉ front.toList) (rest : String) :
    splitOnce separator (front ++ separator ++ rest) = some (front, rest) := by
  unfold splitOnce
  rw [String.toList_append, String.toList_append, hseparator, List.append_assoc,
    splitOnceFrom_append h]
  simp

/-- A separator of one character does not occur, or its first occurrence is found. -/
theorem splitOnce_cases {separator : String} {c : Char} (hseparator : separator.toList = [c])
    (s : String) :
    (c ∉ s.toList ∧ splitOnce separator s = none) ∨
      ∃ front rest, s = front ++ separator ++ rest ∧ c ∉ front.toList ∧
        splitOnce separator s = some (front, rest) := by
  by_cases hc : c ∈ s.toList
  · right
    obtain ⟨front, rest, hs, hfront⟩ := List.eq_append_cons_of_mem hc
    have htext : s = String.ofList front ++ separator ++ String.ofList rest := by
      rw [← String.toList_inj]
      simp [hs, hseparator]
    refine ⟨String.ofList front, String.ofList rest, htext, by simpa using hfront, ?_⟩
    rw [htext]
    exact splitOnce_append hseparator (by simpa using hfront) _
  · left
    refine ⟨hc, ?_⟩
    unfold splitOnce
    rw [hseparator, splitOnceFrom_none hc, Option.map_none]

/-- `s[:stop]`: a negative stop counts from the end. -/
def sliceTo (stop : Int) (s : String) : String :=
  if 0 ≤ stop then textPrefix stop.toNat s else textPrefix (s.toList.length - (-stop).toNat) s

/-- What ends a line for `str.splitlines`. -/
def isLineBoundary (c : Char) : Bool :=
  let n := c.toNat
  (10 ≤ n && n ≤ 13) || (28 ≤ n && n ≤ 30) || n = 0x85 || n = 0x2028 || n = 0x2029

def splitlinesFrom : List Char → List Char → List String
  | [], [] => []
  | [], line => [String.ofList line.reverse]
  | '\r' :: '\n' :: rest, line => String.ofList line.reverse :: splitlinesFrom rest []
  | c :: rest, line =>
    if isLineBoundary c then String.ofList line.reverse :: splitlinesFrom rest []
    else splitlinesFrom rest (c :: line)

/-- `s.splitlines()`. -/
def splitlines (s : String) : List String :=
  splitlinesFrom s.toList []

/-- `s.replace(part, "")` on characters, for a part that is not empty; `skip` characters
of the last occurrence are still to be dropped. -/
def removeFrom (part : List Char) : Nat → List Char → List Char
  | _, [] => []
  | skip + 1, _ :: rest => removeFrom part skip rest
  | 0, c :: rest =>
    if part.isPrefixOf (c :: rest) then removeFrom part (part.length - 1) rest
    else c :: removeFrom part 0 rest

/-- `s.replace(part, "")`. -/
def removeText (part s : String) : String :=
  String.ofList (removeFrom part.toList 0 s.toList)

example : removeText "refs/heads/" "refs/heads/main" = "main" := by decide +kernel

/-- `s.lower()` for ASCII text. -/
def asciiLower (s : String) : String :=
  String.ofList (s.toList.map Char.toLower)

/-- What is assumed of `str.lower`: nothing outside ASCII. -/
def LowersAscii (lower : String → String) : Prop :=
  ∀ s : String, (∀ c ∈ s.toList, c.toNat < 128) → lower s = asciiLower s

theorem lowersAscii_asciiLower : LowersAscii asciiLower :=
  fun _ _ => rfl

/-- Python's truth value of an optional string: neither `None` nor `""`. -/
def truthy : Option String → Bool
  | none => false
  | some s => !s.isEmpty

end PluginRegistry
