import PluginRegistry.Proofs.JsonTexts

namespace PluginRegistry
open Lib

theorem splitlinesFrom_cons {c : Char} {rest : List Char}
    (h : ¬ (c = '\r' ∧ rest.head? = some '\n')) (line : List Char) :
    splitlinesFrom (c :: rest) line =
      if isLineBoundary c then String.ofList line.reverse :: splitlinesFrom rest []
      else splitlinesFrom rest (c :: line) := by
  rw [splitlinesFrom]
  rintro rest' rfl rfl
  exact h ⟨rfl, rfl⟩

theorem newlines_cons {c : Char} {rest : List Char} (h : ¬ (c = '\r' ∧ rest.head? = some '\n')) :
    newlines (c :: rest) = asNewline c :: newlines rest := by
  rw [newlines]
  rintro rest' rfl rfl
  exact h ⟨rfl, rfl⟩

theorem splitlinesFrom_newline (front back line : List Char) :
    splitlinesFrom (front ++ '\n' :: back) line =
      splitlinesFrom (front ++ ['\n']) line ++ splitlinesFrom back [] := by
  induction front, line using splitlinesFrom.induct with
  | case1 => rfl
  | case2 line hline => rfl
  | case3 rest line ih =>
    rw [List.cons_append, List.cons_append, List.cons_append, List.cons_append, splitlinesFrom,
      splitlinesFrom, ih, List.cons_append]
  | case4 c rest line hne hbreak ih =>
    by_cases hreturn : c = '\r' ∧ rest = []
    · obtain ⟨rfl, rfl⟩ := hreturn
      rfl
    · have hno : ∀ tail, ¬ (c = '\r' ∧ (rest ++ '\n' :: tail).head? = some '\n') := by
        rintro tail ⟨rfl, hhead⟩
        cases rest with
        | nil => exact hreturn ⟨rfl, rfl⟩
        | cons d rest => exact hne rest rfl (by simpa using hhead)
      rw [List.cons_append, List.cons_append, splitlinesFrom_cons (hno _),
        splitlinesFrom_cons (hno _), if_pos hbreak, if_pos hbreak, ih, List.cons_append]
  | case5 c rest line hne hbreak ih =>
    have hno : ∀ tail : List Char, ¬ (c = '\r' ∧ tail.head? = some '\n') := by
      rintro tail ⟨rfl, -⟩
      exact hbreak rfl
    rw [List.cons_append, List.cons_append, splitlinesFrom_cons (hno _),
      splitlinesFrom_cons (hno _), if_neg hbreak, if_neg hbreak, ih]

theorem splitlinesFrom_eq_nil {chars line : List Char} (h : splitlinesFrom chars line = []) :
    chars = [] ∧ line = [] := by
  induction chars, line using splitlinesFrom.induct with
  | case1 => exact ⟨rfl, rfl⟩
  | case2 line hline =>
    rw [splitlinesFrom] at h
    · cases h
    · exact hline
  | case3 rest line ih =>
    rw [splitlinesFrom] at h
    cases h
  | case4 c rest line hne hbreak ih =>
    rw [splitlinesFrom, if_pos hbreak] at h
    · cases h
    · exact hne
  | case5 c rest line hne hbreak ih =>
    rw [splitlinesFrom, if_neg hbreak] at h
    · cases (ih h).2
    · exact hne

/-- Lines that are joined again. -/
theorem join_splitlinesFrom (chars line : List Char) :
    ∃ final, (final = [] ∨ final = ['\n']) ∧ line.reverse ++ newlines chars =
      (String.intercalate "\n" (splitlinesFrom chars line)).toList ++ final := by
  have hjoint : ("\n" : String).toList = ['\n'] := rfl
  -- A line that ends here goes before the joined rest.
  have hline : ∀ (line rest : List Char), (∃ final, (final = [] ∨ final = ['\n']) ∧
      newlines rest = (String.intercalate "\n" (splitlinesFrom rest [])).toList ++ final) →
      ∃ final, (final = [] ∨ final = ['\n']) ∧ line.reverse ++ '\n' :: newlines rest =
        (String.intercalate "\n" (String.ofList line.reverse :: splitlinesFrom rest [])).toList ++
          final := by
    rintro line rest ⟨final, hfinal, hrest⟩
    by_cases hlines : splitlinesFrom rest [] = []
    · refine ⟨['\n'], .inr rfl, ?_⟩
      rw [hlines, (splitlinesFrom_eq_nil hlines).1]
      simp [newlines]
    · refine ⟨final, hfinal, ?_⟩
      rw [hrest]
      rw [String.toList_intercalate, String.toList_intercalate, List.map_cons,
        List.intercalate_cons_of_ne_nil (by simpa using hlines), hjoint]
      simp
  induction chars, line using splitlinesFrom.induct with
  | case1 => exact ⟨[], .inl rfl, rfl⟩
  | case2 line hne =>
    refine ⟨[], .inl rfl, ?_⟩
    rw [splitlinesFrom]
    · simp [newlines]
    · exact hne
  | case3 rest line ih =>
    rw [newlines, splitlinesFrom]
    exact hline line rest ih
  | case4 c rest line hne hbreak ih =>
    rw [newlines, splitlinesFrom, if_pos hbreak, asNewline, if_pos hbreak]
    · exact hline line rest ih
    · exact hne
    · exact hne
  | case5 c rest line hne hbreak ih =>
    rw [newlines, splitlinesFrom, if_neg hbreak, asNewline, if_neg hbreak]
    · simpa using ih
    · exact hne
    · exact hne

def IsBlank (s : String) : Prop :=
  ∀ c ∈ s.toList, isSpace c = true

theorem isBlank_iff {s : String} : IsBlank s ↔ s.toList.dropWhile isSpace = [] :=
  List.dropWhile_eq_nil_iff.symm

theorem dropWhile_append_cons {p : Char → Bool} {c : Char} (h : p c = false)
    (front back : List Char) :
    (front ++ c :: back).dropWhile p = front.dropWhile p ++ c :: back := by
  rw [List.dropWhile_append]
  split
  · rename_i hfront
    rw [List.isEmpty_iff.mp hfront, List.dropWhile_cons_of_neg (by simp [h]), List.nil_append]
  · rfl

/-- Trimming takes nothing from a part that neither begins nor ends with a blank. -/
theorem toList_strip_around {text : String} {front core back : List Char} {c d : Char}
    (htext : text.toList = front ++ (core ++ back)) (hfirst : core.head? = some c)
    (hlast : core.getLast? = some d) (hc : isSpace c = false) (hd : isSpace d = false) :
    (strip text).toList =
      front.dropWhile isSpace ++ (core ++ back.rdropWhile isSpace) := by
  obtain ⟨tail, hcore⟩ := List.head?_eq_some_iff.mp hfirst
  obtain ⟨init, hinit⟩ := List.getLast?_eq_some_iff.mp hlast
  rw [toList_strip, htext]
  calc ((front ++ (core ++ back)).dropWhile isSpace).rdropWhile isSpace
      = (front.dropWhile isSpace ++ (core ++ back)).rdropWhile isSpace := by
        rw [hcore, List.cons_append, dropWhile_append_cons hc]
    _ = (front.dropWhile isSpace ++ init ++ d :: back).rdropWhile isSpace := by
        rw [hinit]
        simp
    _ = front.dropWhile isSpace ++ (core ++ back.rdropWhile isSpace) := by
        rw [rdropWhile_append_cons hd, hinit]
        simp

theorem endsWith_strip_iff {s : String} :
    endsWith "\x7d" (strip s) = true ↔ (s.toList.rdropWhile isSpace).getLast? = some '\x7d' := by
  have hbrace : ("\x7d" : String).toList = ['\x7d'] := rfl
  rw [endsWith, List.isSuffixOf_iff_suffix, hbrace, toList_strip, rdropWhile_dropWhile]
  generalize s.toList.rdropWhile isSpace = chars
  constructor
  · intro h
    obtain ⟨init, hinit⟩ := h.trans (List.dropWhile_suffix isSpace)
    rw [← hinit, List.getLast?_append]
    rfl
  · intro h
    obtain ⟨init, rfl⟩ := List.getLast?_eq_some_iff.mp h
    rw [dropWhile_append_cons (by decide)]
    exact List.suffix_append ..

def locateObject (text : String) : Except PyErr String :=
  if startsWith "\x7b" text && text.toList.getLast? = some '\x7d' then .ok text
  else
    match text.toList.dropWhile (· ≠ '\x7b') with
    | [] => .error (valueError "LLM response does not contain a JSON object")
    | found =>
      match objectLength found 0 false false with
      | some length => .ok (String.ofList (found.take length))
      | none => .error (valueError "LLM response contains an incomplete JSON object")

theorem extractJsonObject_eq (raw : String) :
    extractJsonObject raw = locateObject (stripCodeFence (strip raw)) := by
  unfold extractJsonObject locateObject
  generalize stripCodeFence (strip raw) = text
  rfl

theorem objectLength_last {chars : List Char} {depth length : Nat} {inString escape : Bool}
    (h : objectLength chars depth inString escape = some length) :
    (chars.take length).getLast? = some '\x7d' := by
  induction chars generalizing depth length inString escape with
  | nil => cases h
  | cons c chars ih =>
    have hon : ∀ {depth : Nat} {inString escape : Bool},
        (objectLength chars depth inString escape).map (· + 1) = some length →
          ((c :: chars).take length).getLast? = some '\x7d' := by
      intro depth inString escape hmap
      obtain ⟨n, hn, rfl⟩ := Option.map_eq_some_iff.mp hmap
      rw [List.take_succ_cons, List.getLast?_cons, ih hn]
      rfl
    rw [objectLength] at h
    split at h
    · exact hon h
    split at h
    · exact hon h
    split at h
    · exact hon h
    split at h
    · exact hon h
    split at h
    · exact hon h
    split at h
    · rename_i hbrace
      split at h
      · obtain rfl := Option.some.inj h
        simp [hbrace]
      · exact hon h
    · exact hon h

theorem startsWith_brace_iff {text : String} :
    startsWith "\x7b" text = true ↔ text.toList.head? = some '\x7b' := by
  have hbrace : ("\x7b" : String).toList = ['\x7b'] := rfl
  rw [startsWith, List.isPrefixOf_iff_prefix, hbrace]
  cases text.toList <;> simp [eq_comm]

/-- What stands around an object makes the first and the last brace of the text a pair. -/
def TakenWhole (start ending : String) : Prop :=
  IsBlank start ∧ endsWith "\x7d" (strip ending) = true

/-- A text shows an object: nothing before it opens a brace, and the text is not taken whole. -/
def JsonReader.Presents (reader : JsonReader) (text : String) (result : JsonObject) : Prop :=
  ∃ start object ending : String, text = start ++ object ++ ending ∧ '\x7b' ∉ start.toList ∧
    reader.ObjectText object result ∧ ¬ TakenWhole start ending

section
variable {reader : JsonReader} {result : JsonObject}

theorem dropWhile_no_brace {front back : List Char} (h : '\x7b' ∉ front) :
    (front ++ '\x7b' :: back).dropWhile (· ≠ '\x7b') = '\x7b' :: back := by
  rw [List.dropWhile_append_of_pos]
  · exact List.dropWhile_cons_of_neg (by simp)
  · intro c hc
    simpa using fun heq : c = '\x7b' => h (heq ▸ hc)

/-- An object that starts at the first brace of a text is found, unless the text begins with
it and ends in another brace. -/
theorem locateObject_of_object {text object : String} {front back : List Char}
    (htext : text.toList = front ++ (object.toList ++ back)) (hfront : '\x7b' ∉ front)
    (hobject : reader.ObjectText object result)
    (hnot : ¬ (front = [] ∧ back.getLast? = some '\x7d')) : locateObject text = .ok object := by
  obtain ⟨chars, hchars⟩ := List.head?_eq_some_iff.mp hobject.first
  unfold locateObject
  by_cases hwhole : (startsWith "\x7b" text && text.toList.getLast? = some '\x7d') = true
  · rw [if_pos hwhole]
    obtain ⟨hstart, hend⟩ := Bool.and_eq_true_iff.mp hwhole
    have hhead := startsWith_brace_iff.mp hstart
    have hnil : front = [] := by
      cases front with
      | nil => rfl
      | cons c front =>
        rw [htext] at hhead
        obtain rfl := Option.some.inj hhead
        exact absurd List.mem_cons_self hfront
    have hback : back = [] := by
      cases hlast : back.getLast? with
      | none => exact List.getLast?_eq_none_iff.mp hlast
      | some d =>
        rw [htext, hnil, List.nil_append, List.getLast?_append, hlast] at hend
        obtain rfl : d = '\x7d' := by simpa using hend
        exact absurd ⟨hnil, hlast⟩ hnot
    rw [hnil, hback, List.nil_append, List.append_nil] at htext
    rw [String.toList_inj.mp htext]
  · have hfound : text.toList.dropWhile (· ≠ '\x7b') = '\x7b' :: (chars ++ back) := by
      rw [htext, hchars, List.cons_append, dropWhile_no_brace hfront]
    have hlength := hobject.length back
    rw [hchars, List.cons_append] at hlength
    rw [if_neg hwhole, hfound]
    simp only [hlength]
    rw [← List.cons_append, List.take_left, ← hchars, String.ofList_toList]

/-- What is found and loads is an object that starts at the first brace of the text. -/
theorem object_of_locateObject {text object : String} (h : locateObject text = .ok object)
    (hloads : reader.loads object = .ok (.obj result)) :
    ∃ front back, text.toList = front ++ (object.toList ++ back) ∧ '\x7b' ∉ front ∧
      reader.ObjectText object result ∧ ¬ (front = [] ∧ back.getLast? = some '\x7d') := by
  unfold locateObject at h
  split at h
  · rename_i hwhole
    obtain rfl := Except.ok.inj h
    obtain ⟨hstart, hend⟩ := Bool.and_eq_true_iff.mp hwhole
    refine ⟨[], [], by simp, by simp, ⟨hloads, ?_, ?_⟩, by simp⟩
    · exact startsWith_brace_iff.mp hstart
    · simpa using hend
  · rename_i hwhole
    generalize hfound : text.toList.dropWhile (· ≠ '\x7b') = found at h
    cases found with
    | nil => cases h
    | cons c rest =>
      have hbrace : c = '\x7b' := by
        have hhead := List.head?_dropWhile_not (· ≠ '\x7b') text.toList
        rw [hfound] at hhead
        simpa using hhead
      cases hlength : objectLength (c :: rest) 0 false false with
      | none =>
        simp only [hlength] at h
        cases h
      | some length =>
        simp only [hlength] at h
        obtain rfl := Except.ok.inj h
        have hlast := objectLength_last hlength
        refine ⟨text.toList.takeWhile (· ≠ '\x7b'), (c :: rest).drop length, ?_, ?_,
          ⟨hloads, ?_, ?_⟩, ?_⟩
        · rw [String.toList_ofList, List.take_append_drop, ← hfound,
            List.takeWhile_append_dropWhile]
        · intro hmem
          simpa using List.mem_takeWhile_imp hmem
        · rw [String.toList_ofList]
          cases length with
          | zero => cases hlast
          | succ n => simp [hbrace]
        · rwa [String.toList_ofList]
        · rintro ⟨hnil, hend⟩
          have htext : text.toList = c :: rest := by
            rw [← hfound, ← List.nil_append (text.toList.dropWhile _), ← hnil,
              List.takeWhile_append_dropWhile]
          apply hwhole
          rw [Bool.and_eq_true_iff, startsWith_brace_iff, htext,
            ← List.take_append_drop length (c :: rest), List.getLast?_append, hend,
            List.take_append_drop]
          exact ⟨congrArg some hbrace, by simp⟩

/-- A text is read where it shows an object, and as that object. -/
theorem locateObject_strip_iff {text : String} :
    (∃ object, locateObject (strip text) = .ok object ∧ reader.loads object = .ok (.obj result)) ↔
      reader.Presents text result := by
  constructor
  · rintro ⟨object, hlocate, hloads⟩
    obtain ⟨front, back, hstrip, hfront, hobject, hnot⟩ := object_of_locateObject hlocate hloads
    obtain ⟨before, after, htext, hblank⟩ := stripBy_split isSpace text
    refine ⟨String.ofList (before ++ front), object, String.ofList (back ++ after), ?_, ?_,
      hobject, ?_⟩
    · have hinner : (stripBy isSpace text).toList = front ++ (object.toList ++ back) := hstrip
      rw [← String.toList_inj, htext, hinner]
      simp
    · rw [String.toList_ofList]
      intro hmem
      rcases List.mem_append.mp hmem with hmem | hmem
      · cases hblank _ (List.mem_append_left _ hmem)
      · exact hfront hmem
    · rintro ⟨hstart, hend⟩
      have htrims := trims_strip text.toList
      rw [← toList_strip, hstrip] at htrims
      have hnil : front = [] := by
        cases front with
        | nil => rfl
        | cons c front =>
          have hspace := hstart c (by simp)
          rw [htrims.first c rfl] at hspace
          cases hspace
      rw [endsWith_strip_iff, String.toList_ofList] at hend
      have hafter : after.rdropWhile isSpace = [] :=
        List.rdropWhile_eq_nil_iff.mpr fun c hc => hblank c (List.mem_append_right _ hc)
      cases hlast : back.getLast? with
      | none =>
        rw [List.getLast?_eq_none_iff.mp hlast, List.nil_append, hafter] at hend
        cases hend
      | some d =>
        obtain ⟨init, hinit⟩ := List.getLast?_eq_some_iff.mp hlast
        have hd := htrims.last d (by
          rw [List.getLast?_append, List.getLast?_append, hlast]
          rfl)
        rw [hinit, List.append_assoc, List.singleton_append, rdropWhile_append_cons hd, hafter,
          List.getLast?_append] at hend
        exact hnot ⟨hnil, hlast.trans hend⟩
  · rintro ⟨start, object, ending, rfl, hstart, hobject, hnot⟩
    refine ⟨object, ?_, hobject.denotes⟩
    have htext : (start ++ object ++ ending).toList =
        start.toList ++ (object.toList ++ ending.toList) := by
      simp
    have hstrip := toList_strip_around htext hobject.first hobject.last (by decide) (by decide)
    refine locateObject_of_object hstrip ?_ hobject ?_
    · exact fun hmem => hstart ((List.dropWhile_sublist _).mem hmem)
    · rintro ⟨hnil, hlast⟩
      exact hnot ⟨isBlank_iff.mpr hnil, endsWith_strip_iff.mpr hlast⟩

/-- A text shows at most one object. -/
theorem presents_around_iff {start object ending : String} (hstart : '\x7b' ∉ start.toList)
    (hobject : reader.ObjectText object result) :
    reader.Presents (start ++ object ++ ending) result ↔ ¬ TakenWhole start ending := by
  constructor
  · rintro ⟨start', object', ending', htext, hstart', hobject', hnot⟩
    obtain ⟨chars, hchars⟩ := List.head?_eq_some_iff.mp hobject.first
    obtain ⟨chars', hchars'⟩ := List.head?_eq_some_iff.mp hobject'.first
    have hlists : start.toList ++ (object.toList ++ ending.toList) =
        start'.toList ++ (object'.toList ++ ending'.toList) := by
      simpa using String.toList_inj.mpr htext
    have hfound : object.toList ++ ending.toList = object'.toList ++ ending'.toList := by
      have hdrop := congrArg (List.dropWhile (· ≠ '\x7b')) hlists
      rw [hchars, hchars', List.cons_append, List.cons_append, dropWhile_no_brace hstart,
        dropWhile_no_brace hstart'] at hdrop
      rw [hchars, hchars', List.cons_append, List.cons_append, hdrop]
    have hlength : object.toList.length = object'.toList.length := by
      apply Option.some.inj
      rw [← hobject.length ending.toList, hfound, hobject'.length ending'.toList]
    obtain ⟨-, hending⟩ := List.append_inj hfound hlength
    rw [hfound] at hlists
    rw [String.toList_inj.mp (List.append_cancel_right hlists), String.toList_inj.mp hending]
    exact hnot
  · exact fun hnot => ⟨start, object, ending, rfl, hstart, hobject, hnot⟩

theorem parseLlmResponse_ok_iff {client : LlmClient} {raw : String} :
    parseLlmResponse client raw = .ok result ↔
      (∃ object, extractJsonObject raw = .ok object ∧
        client.loads object = .ok (.obj result)) ∧
      (JsonObject.get result "pass").isSome ∧ (JsonObject.get result "risk_level").isSome := by
  constructor
  · intro h
    obtain ⟨object, hobject, h⟩ := except_bind_ok h
    obtain ⟨value, hvalue, h⟩ := except_bind_ok h
    split at h
    · rename_i fields
      by_cases hkeys : (JsonObject.get fields "pass").isSome &&
          (JsonObject.get fields "risk_level").isSome
      · rw [if_pos hkeys] at h
        obtain rfl := Except.ok.inj h
        exact ⟨⟨object, hobject, hvalue⟩, Bool.and_eq_true_iff.mp hkeys⟩
      · rw [if_neg hkeys] at h
        cases h
    · cases h
  · rintro ⟨⟨object, hobject, hvalue⟩, hkeys⟩
    unfold parseLlmResponse
    rw [except_bind_eq hobject, except_bind_eq hvalue]
    exact if_pos (Bool.and_eq_true_iff.mpr hkeys)

end

def opensFence (start : String) : Bool :=
  startsWith "```" (lstripBy isSpace start)

/-- The lines behind the fence line that a text begins with, without a fence line at
their end. -/
def fenceBody (text : String) : String :=
  let lines := (splitlines text).tail
  String.intercalate "\n"
    (if lines.getLast?.any (startsWith "```") then lines.dropLast else lines)

theorem isPrefix_append_cons_iff {part front back : List Char} {c : Char} (h : c ∉ part) :
    part <+: front ++ c :: back ↔ part <+: front := by
  induction part generalizing front with
  | nil => simp
  | cons d part ih =>
    obtain ⟨hne, hpart⟩ := not_or.mp (List.mem_cons.not.mp h)
    cases front with
    | nil => simp [List.cons_prefix_cons, Ne.symm hne]
    | cons e front => simp [List.cons_prefix_cons, ih hpart]

theorem startsWith_strip_object {reader : JsonReader} {result : JsonObject}
    {start object ending : String} (hobject : reader.ObjectText object result) :
    startsWith "```" (strip (start ++ object ++ ending)) = opensFence start := by
  have htext : (start ++ object ++ ending).toList =
      start.toList ++ (object.toList ++ ending.toList) := by
    simp
  have hstrip := toList_strip_around htext hobject.first hobject.last (by decide) (by decide)
  obtain ⟨chars, hchars⟩ := List.head?_eq_some_iff.mp hobject.first
  rw [Bool.eq_iff_iff, opensFence, startsWith, startsWith, List.isPrefixOf_iff_prefix,
    List.isPrefixOf_iff_prefix, hstrip, hchars, List.cons_append,
    isPrefix_append_cons_iff (by decide), lstripBy]
  simp only [String.toList_ofList]

theorem splitlinesFrom_first (chars : List Char) {line : List Char} (h : line ≠ []) :
    ∃ more lines, splitlinesFrom chars line = String.ofList (line.reverse ++ more) :: lines := by
  induction chars, line using splitlinesFrom.induct with
  | case1 => exact absurd rfl h
  | case2 line hne =>
    refine ⟨[], [], ?_⟩
    rw [splitlinesFrom, List.append_nil]
    exact hne
  | case3 rest line ih =>
    exact ⟨[], splitlinesFrom rest [], by rw [splitlinesFrom, List.append_nil]⟩
  | case4 c rest line hne hbreak ih =>
    refine ⟨[], splitlinesFrom rest [], ?_⟩
    rw [splitlinesFrom, if_pos hbreak, List.append_nil]
    exact hne
  | case5 c rest line hne hbreak ih =>
    obtain ⟨more, lines, hlines⟩ := ih (by simp)
    refine ⟨c :: more, lines, ?_⟩
    rw [splitlinesFrom, if_neg hbreak, hlines]
    · simp
    · exact hne

theorem stripCodeFence_of_fence {text : String} (h : startsWith "```" text = true) :
    stripCodeFence text = strip (fenceBody text) := by
  have hfence : ("```" : String).toList = ['\x60', '\x60', '\x60'] := rfl
  obtain ⟨rest, hrest⟩ := List.isPrefixOf_iff_prefix.mp h
  rw [hfence] at hrest
  obtain ⟨more, lines, hlines⟩ :=
    splitlinesFrom_first rest (List.cons_ne_nil '\x60' ['\x60', '\x60'])
  have hsplit : splitlines text = String.ofList ('\x60' :: '\x60' :: '\x60' :: more) :: lines := by
    rw [splitlines, ← hrest]
    exact hlines
  have hfirst : startsWith "```" (String.ofList ('\x60' :: '\x60' :: '\x60' :: more)) = true := by
    rw [startsWith, List.isPrefixOf_iff_prefix, hfence, String.toList_ofList]
    exact ⟨more, rfl⟩
  rw [stripCodeFence, if_pos h, fenceBody]
  simp only [hsplit, List.head?_cons, Option.any_some, hfirst, List.tail_cons, if_true]

theorem extractJsonObject_of_fence {raw : String} (h : startsWith "```" (strip raw) = true) :
    extractJsonObject raw = locateObject (strip (fenceBody (strip raw))) := by
  rw [extractJsonObject_eq, stripCodeFence_of_fence h]

theorem extractJsonObject_of_no_fence {raw : String} (h : ¬ startsWith "```" (strip raw) = true) :
    extractJsonObject raw = locateObject (strip raw) := by
  rw [extractJsonObject_eq, stripCodeFence, if_neg h]

def fencedBlock (newline info before object after : String) : String :=
  "```" ++ info ++ newline ++ before ++ object ++ after ++ newline ++ "```"

theorem newlines_append {front back : List Char}
    (h : ¬ (front.getLast? = some '\r' ∧ back.head? = some '\n')) :
    newlines (front ++ back) = newlines front ++ newlines back := by
  induction front using newlines.induct with
  | case1 rest ih =>
    rw [List.cons_append, List.cons_append, newlines, newlines, List.cons_append, ih]
    rintro ⟨hlast, hhead⟩
    refine h ⟨?_, hhead⟩
    rw [List.getLast?_cons_cons, List.getLast?_cons, hlast]
    rfl
  | case2 c rest hne ih =>
    have hfront : ¬ (c = '\r' ∧ rest.head? = some '\n') := by
      rintro ⟨rfl, hhead⟩
      obtain ⟨rest', rfl⟩ := List.head?_eq_some_iff.mp hhead
      exact hne rest' rfl rfl
    have hwhole : ¬ (c = '\r' ∧ (rest ++ back).head? = some '\n') := by
      rintro ⟨rfl, hhead⟩
      cases rest with
      | nil => exact h ⟨rfl, hhead⟩
      | cons d rest => exact hfront ⟨rfl, hhead⟩
    rw [List.cons_append, newlines_cons hwhole, newlines_cons hfront, List.cons_append, ih]
    rintro ⟨hlast, hhead⟩
    refine h ⟨?_, hhead⟩
    rw [List.getLast?_cons, hlast]
    rfl
  | case3 => rfl

theorem newlines_blank {chars : List Char} (h : ∀ c ∈ chars, isSpace c = true) :
    ∀ c ∈ newlines chars, isSpace c = true := by
  induction chars using newlines.induct with
  | case1 rest ih =>
    simp only [List.mem_cons, forall_eq_or_imp, newlines] at h ⊢
    exact ⟨rfl, ih h.2.2⟩
  | case2 c rest hne ih =>
    simp only [List.mem_cons, forall_eq_or_imp] at h
    rw [newlines]
    · simp only [List.mem_cons, forall_eq_or_imp, asNewline]
      refine ⟨?_, ih h.2⟩
      split
      · rfl
      · exact h.1
    · exact hne
  | case3 => simp [newlines]

theorem strip_join_splitlines (chars : List Char) :
    strip (String.intercalate "\n" (splitlinesFrom chars [])) =
      strip (String.ofList (newlines chars)) := by
  obtain ⟨final, hfinal, hjoin⟩ := join_splitlinesFrom chars []
  generalize String.intercalate "\n" (splitlinesFrom chars []) = joined at hjoin ⊢
  have htrims := trims_strip joined.toList
  obtain ⟨front, back, hsplit, hfront, hback⟩ := htrims.split
  rw [List.reverse_nil, List.nil_append] at hjoin
  rw [← String.toList_inj, toList_strip, toList_strip, String.toList_ofList]
  refine (Trims.eq ⟨⟨front, back ++ final, ?_, hfront, ?_⟩, htrims.first, htrims.last⟩).symm
  · rw [hjoin, ← List.append_assoc _ back, ← List.append_assoc front, ← hsplit]
  · intro c hc
    rcases List.mem_append.mp hc with hc | hc
    · exact hback c hc
    · rcases hfinal with rfl | rfl
      · cases hc
      · obtain rfl := List.mem_singleton.mp hc
        rfl

theorem splitlinesFrom_one_line {chars ending : List Char}
    (h : ∀ c ∈ chars, isLineBoundary c = false) (hending : ending = [] ∨ ending = ['\r'])
    (line : List Char) :
    ∃ first, splitlinesFrom (chars ++ ending ++ ['\n']) line = [first] := by
  induction chars generalizing line with
  | nil => rcases hending with rfl | rfl <;> exact ⟨_, rfl⟩
  | cons c chars ih =>
    simp only [List.mem_cons, forall_eq_or_imp] at h
    obtain ⟨first, hfirst⟩ := ih h.2 (c :: line)
    refine ⟨first, ?_⟩
    rw [List.cons_append, List.cons_append, splitlinesFrom_cons, if_neg (by simp [h.1]), hfirst]
    rintro ⟨rfl, -⟩
    cases h.1

theorem fenceBody_of_lines {text : String} {opening content : List Char} {first : String}
    (htext : text.toList = opening ++ '\n' :: (content ++ '\n' :: "```".toList))
    (hfirst : splitlinesFrom (opening ++ ['\n']) [] = [first]) :
    fenceBody text = String.intercalate "\n" (splitlinesFrom (content ++ ['\n']) []) := by
  have hclosing : splitlinesFrom "```".toList [] = ["```"] := rfl
  have hlines : splitlines text =
      first :: (splitlinesFrom (content ++ ['\n']) [] ++ ["```"]) := by
    rw [splitlines, htext, splitlinesFrom_newline, hfirst, splitlinesFrom_newline, hclosing]
    rfl
  have hlast : (splitlinesFrom (content ++ ['\n']) [] ++ ["```"]).getLast?.any
      (startsWith "```") = true := by
    rw [List.getLast?_append]
    rfl
  simp only [fenceBody, hlines, List.tail_cons, hlast, if_true, List.dropLast_concat]

theorem newlines_object {reader : JsonReader} {result : JsonObject} {object : String}
    (hobject : reader.ObjectText object result) :
    (newlines object.toList).head? = some '\x7b' ∧
      (newlines object.toList).getLast? = some '\x7d' := by
  constructor
  · obtain ⟨chars, hchars⟩ := List.head?_eq_some_iff.mp hobject.first
    rw [hchars, newlines_cons (by rintro ⟨h, -⟩; cases h)]
    rfl
  · obtain ⟨init, hinit⟩ := List.getLast?_eq_some_iff.mp hobject.last
    rw [hinit, newlines_append (by rintro ⟨-, h⟩; cases h), List.getLast?_append]
    rfl

/-- What is cut out of a fenced block is the object with other line ends. -/
theorem extractJsonObject_fencedBlock {reader : JsonReader} {result : JsonObject}
    {lead newline info before object after trail : String}
    (hobject : reader.ObjectText object result) (hnewline : newline = "\n" ∨ newline = "\r\n")
    (hinfo : ∀ c ∈ info.toList, isLineBoundary c = false) (hlead : IsBlank lead)
    (hbefore : IsBlank before) (hafter : IsBlank after) (htrail : IsBlank trail) :
    extractJsonObject (lead ++ fencedBlock newline info before object after ++ trail) =
      .ok (String.ofList (newlines object.toList)) := by
  obtain ⟨ending, hending, hline⟩ : ∃ ending : List Char,
      (ending = [] ∨ ending = ['\r']) ∧ newline.toList = ending ++ ['\n'] := by
    rcases hnewline with rfl | rfl
    · exact ⟨[], .inl rfl, rfl⟩
    · exact ⟨['\r'], .inr rfl, rfl⟩
  have hblock : (fencedBlock newline info before object after).toList =
      ("```".toList ++ info.toList ++ ending) ++ '\n' ::
        ((before.toList ++ (object.toList ++ (after.toList ++ ending))) ++
          '\n' :: "```".toList) := by
    simp [fencedBlock, hline]
  have hfence : "```".toList = ['\x60', '\x60', '\x60'] := rfl
  generalize hwhole : fencedBlock newline info before object after = block at hblock
  have hstrip : strip (lead ++ block ++ trail) = block := by
    have hfirst : block.toList.head? = some '\x60' := by
      rw [hblock, hfence]
      rfl
    have hlast : block.toList.getLast? = some '\x60' := by
      rw [hblock, hfence, List.getLast?_append, List.getLast?_cons, List.getLast?_append]
      rfl
    have htext : (lead ++ block ++ trail).toList =
        lead.toList ++ (block.toList ++ trail.toList) := by
      simp
    have haround := toList_strip_around htext hfirst hlast (by decide) (by decide)
    rw [isBlank_iff.mp hlead, List.rdropWhile_eq_nil_iff.mpr htrail, List.nil_append,
      List.append_nil] at haround
    exact String.toList_inj.mp haround
  have hopens : startsWith "```" block = true := by
    rw [startsWith, List.isPrefixOf_iff_prefix, hblock]
    simp
  obtain ⟨first, hfirst⟩ : ∃ first,
      splitlinesFrom (("```".toList ++ info.toList ++ ending) ++ ['\n']) [] = [first] := by
    apply splitlinesFrom_one_line _ hending
    intro c hc
    rcases List.mem_append.mp hc with hc | hc
    · rw [hfence] at hc
      obtain rfl : c = '\x60' := by simpa using hc
      rfl
    · exact hinfo c hc
  have hending' : ∀ c ∈ after.toList ++ ending ++ ['\n'], isSpace c = true := by
    intro c hc
    rcases List.mem_append.mp hc with hc | hc
    · rcases List.mem_append.mp hc with hc | hc
      · exact hafter c hc
      · rcases hending with rfl | rfl
        · cases hc
        · obtain rfl := List.mem_singleton.mp hc
          rfl
    · obtain rfl := List.mem_singleton.mp hc
      rfl
  obtain ⟨hhead, hlast⟩ := newlines_object hobject
  have hcontent :
      newlines (before.toList ++ (object.toList ++ (after.toList ++ ending)) ++ ['\n']) =
      newlines before.toList ++ (newlines object.toList ++
        newlines (after.toList ++ ending ++ ['\n'])) := by
    rw [List.append_assoc, List.append_assoc object.toList, newlines_append, newlines_append]
    · rintro ⟨hreturn, -⟩
      rw [hobject.last] at hreturn
      cases hreturn
    · rintro ⟨-, hbreak⟩
      rw [List.head?_append, hobject.first] at hbreak
      cases hbreak
  have hinner : strip (fenceBody block) = String.ofList (newlines object.toList) := by
    rw [fenceBody_of_lines hblock hfirst, strip_join_splitlines, hcontent, ← String.toList_inj,
      toList_strip_around (String.toList_ofList) hhead hlast (by decide) (by decide),
      List.dropWhile_eq_nil_iff.mpr (newlines_blank hbefore),
      List.rdropWhile_eq_nil_iff.mpr (newlines_blank hending')]
    simp
  rw [extractJsonObject_of_fence (by rw [hstrip]; exact hopens), hstrip, hinner, locateObject,
    if_pos]
  rw [Bool.and_eq_true_iff, startsWith_brace_iff, String.toList_ofList]
  exact ⟨hhead, decide_eq_true hlast⟩

/-- A response gives the object that it shows. Without a code fence in front, only a text
that is taken whole hides the object; behind one, the lines between the fences have to show
it; and a fenced block gives it unless a string of the object holds a line end. -/
theorem llm_object_found_iff (reader : JsonReader) (client : LlmClient)
    {start object ending : String} {result : JsonObject} (hstart : '\x7b' ∉ start.toList)
    (hobject : reader.ObjectText object result)
    (hpass : (JsonObject.get result "pass").isSome)
    (hrisk : (JsonObject.get result "risk_level").isSome) :
    (opensFence start = false →
      (parseLlmResponse { client with loads := reader.loads } (start ++ object ++ ending) =
        .ok result ↔ ¬ TakenWhole start ending)) ∧
    (opensFence start = true →
      (parseLlmResponse { client with loads := reader.loads } (start ++ object ++ ending) =
        .ok result ↔
          reader.Presents (fenceBody (strip (start ++ object ++ ending))) result)) ∧
    ∀ lead newline info before after trail : String, newline = "\n" ∨ newline = "\r\n" →
      (∀ c ∈ info.toList, isLineBoundary c = false) → IsBlank lead → IsBlank before →
      IsBlank after → IsBlank trail →
        (parseLlmResponse { client with loads := reader.loads }
            (lead ++ fencedBlock newline info before object after ++ trail) = .ok result ↔
          ∀ c ∈ rawLineEnds, c ∉ object.toList) := by
  have hopens : startsWith "```" (strip (start ++ object ++ ending)) = opensFence start :=
    startsWith_strip_object hobject
  refine ⟨fun hfence => ?_, fun hfence => ?_, ?_⟩
  · rw [parseLlmResponse_ok_iff, extractJsonObject_of_no_fence (by simp [hopens, hfence]),
      locateObject_strip_iff, presents_around_iff hstart hobject]
    simp [hpass, hrisk]
  · rw [parseLlmResponse_ok_iff, extractJsonObject_of_fence (by simp [hopens, hfence]),
      locateObject_strip_iff]
    simp [hpass, hrisk]
  · intro lead newline info before after trail hnewline hinfo hlead hbefore hafter htrail
    rw [parseLlmResponse_ok_iff,
      extractJsonObject_fencedBlock hobject hnewline hinfo hlead hbefore hafter htrail,
      ← hobject.newlines_iff]
    simp [hpass, hrisk]

def shownObject : String := "\x7b\"pass\":true,\"risk_level\":\"low\"\x7d"

def shownResult : JsonObject := [("pass", .bool true), ("risk_level", .str "low")]

theorem shownObject_text : plainReader.ObjectText shownObject shownResult where
  denotes := by decide +kernel
  first := rfl
  last := rfl

theorem llm_object_found_iff_after_text :
    parseLlmResponse { refusingClient with loads := plainReader.loads }
        ("Result: " ++ shownObject ++ " \x7bx\x7d") = .ok shownResult := by
  have hwhole : ¬TakenWhole "Result: " " \x7bx\x7d" := by
    rintro ⟨hblank, -⟩
    exact absurd (hblank 'R' (by decide)) (by decide)
  exact ((llm_object_found_iff plainReader refusingClient (by decide) shownObject_text rfl rfl).1
    (by decide +kernel)).mpr hwhole

theorem braces_hide_object :
    ¬∀ (reader : JsonReader) (client : LlmClient) (start object ending : String)
      (result : JsonObject), '\x7b' ∉ start.toList → reader.ObjectText object result →
        (JsonObject.get result "pass").isSome → (JsonObject.get result "risk_level").isSome →
          parseLlmResponse { client with loads := reader.loads } (start ++ object ++ ending) =
            .ok result := by
  intro hall
  have hread := hall plainReader refusingClient "" shownObject " \x7bx\x7d" shownResult
    (by decide) shownObject_text rfl rfl
  revert hread
  decide +kernel

end PluginRegistry
