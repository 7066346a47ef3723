import Mathlib.Data.List.DropRight
import PluginRegistry.Proofs.SecretMasks
import PluginRegistry.Services.GitProviders

namespace PluginRegistry

theorem eq_or_eq_toUpper (c : Char) : c = c.toLower ∨ c = c.toLower.toUpper := by
  delta Char.toLower
  by_cases h : c.val ≥ 'A'.val ∧ c.val ≤ 'Z'.val
  · right
    apply Char.ext
    rw [dif_pos h]
    delta Char.toUpper
    dsimp only
    split <;> grind [UInt32.toNat_add]
  · left
    rw [dif_neg h]

def variants (p : Char) : List Char :=
  p :: p.toUpper ::
    (if p = 'i' then [Char.ofNat 0x130, Char.ofNat 0x131]
    else if p = 's' then [Char.ofNat 0x17f] else [])

theorem mem_variants {p c : Char} (h : foldsTo p c = true) : c ∈ variants p := by
  unfold foldsTo at h
  simp only [Bool.or_eq_true, Bool.and_eq_true, decide_eq_true_eq] at h
  rcases h with (rfl | ⟨rfl, rfl | rfl⟩) | ⟨rfl, rfl⟩
  · rcases eq_or_eq_toUpper c with hc | hc
    · rw [← hc]
      exact List.mem_cons_self
    · exact List.mem_cons_of_mem _ (hc ▸ List.mem_cons_self)
  · decide
  · decide
  · decide

def Folds (pattern text : List Char) : Prop :=
  List.Forall₂ (fun p c => foldsTo p c = true) pattern text

theorem Folds.forall {pattern text : List Char} {q : Char → Bool} (h : Folds pattern text)
    (hq : (pattern.all fun p => (variants p).all q) = true) : ∀ c ∈ text, q c = true := by
  induction h with
  | nil => simp
  | @cons p c pattern text hc _ ih =>
    rw [List.all_cons, Bool.and_eq_true] at hq
    intro d hd
    rcases List.mem_cons.mp hd with rfl | hd
    · exact List.all_eq_true.mp hq.1 _ (mem_variants hc)
    · exact ih hq.2 d hd

theorem Folds.not_mem {pattern text : List Char} {c : Char} (h : Folds pattern text)
    (hc : (pattern.all fun p => (variants p).all (· != c)) = true) : c ∉ text := by
  intro hmem
  simpa using h.forall hc c hmem

/-- A pattern without letters matches itself only. -/
theorem Folds.eq {pattern text : List Char} (h : Folds pattern text)
    (hp : (pattern.all fun p => (variants p).all (· == p)) = true) : text = pattern := by
  induction h with
  | nil => rfl
  | @cons p c pattern text hc _ ih =>
    rw [List.all_cons, Bool.and_eq_true] at hp
    have heq : c = p := by
      simpa using List.all_eq_true.mp hp.1 c (mem_variants hc)
    rw [ih hp.2, heq]

theorem Folds.append_inv {front back text : List Char} (h : Folds (front ++ back) text) :
    ∃ a b, text = a ++ b ∧ Folds front a ∧ Folds back b := by
  refine ⟨text.take front.length, text.drop front.length, (List.take_append_drop _ _).symm, ?_⟩
  have hlength := h.length_eq
  have htake := List.forall₂_take front.length h
  have hdrop := List.forall₂_drop front.length h
  rw [List.take_left] at htake
  rw [List.drop_left] at hdrop
  exact ⟨htake, hdrop⟩

theorem Folds.refl (pattern : List Char) (hp : (pattern.all fun p => foldsTo p p) = true) :
    Folds pattern pattern :=
  List.forall₂_same.mpr (List.all_eq_true.mp hp)

theorem afterLiteral_append {pattern front : List Char} (h : Folds pattern front)
    (rest : List Char) : afterLiteral pattern (front ++ rest) = some rest := by
  induction h with
  | nil => rfl
  | @cons p c pattern front hc _ ih => rw [List.cons_append, afterLiteral, if_pos hc, ih]

theorem afterLiteral_some {pattern text rest : List Char}
    (h : afterLiteral pattern text = some rest) :
    ∃ front, text = front ++ rest ∧ Folds pattern front := by
  induction pattern generalizing text with
  | nil =>
    obtain rfl := Option.some.inj h
    exact ⟨[], rfl, .nil⟩
  | cons p pattern ih =>
    cases text with
    | nil => cases h
    | cons c text =>
      rw [afterLiteral] at h
      by_cases hc : foldsTo p c = true
      · rw [if_pos hc] at h
        obtain ⟨front, rfl, hfront⟩ := ih h
        exact ⟨c :: front, rfl, .cons hc hfront⟩
      · rw [if_neg hc] at h
        cases h

/-- A text of the pattern's shape, with everything after the owner's slash in one piece. -/
structure GithubUrl (url scheme host owner tail : List Char) : Prop where
  shape : url = scheme ++ ("://".toList ++ (host ++ '/' :: (owner ++ '/' :: tail)))
  scheme_folds : Folds "http".toList scheme ∨ Folds "https".toList scheme
  host_folds : Folds "github.com".toList host
  owner_ne : owner ≠ []
  owner_segment : '/' ∉ owner

section
variable {url scheme host owner tail repo : List Char}

theorem takeWhile_segment (h : '/' ∉ owner) (tail : List Char) :
    (owner ++ '/' :: tail).takeWhile (· ≠ '/') = owner := by
  rw [List.takeWhile_append_of_pos]
  · simp
  · intro c hc
    have hne : c ≠ '/' := by
      rintro rfl
      exact h hc
    simpa using hne

theorem GithubUrl.match (h : GithubUrl url scheme host owner tail) :
    matchGithubUrl url = (repoGroup tail).map fun repo => (owner, repo) := by
  have hfront : Folds "://".toList "://".toList := Folds.refl _ (by decide)
  have hslash : Folds "/".toList "/".toList := Folds.refl _ (by decide)
  have hhost : Folds "://github.com/".toList ("://".toList ++ (host ++ ['/'])) :=
    List.rel_append hfront (List.rel_append h.host_folds hslash)
  have hpath : afterLiteral "://github.com/".toList
      ("://".toList ++ (host ++ '/' :: (owner ++ '/' :: tail))) = some (owner ++ '/' :: tail) := by
    have hafter := afterLiteral_append hhost (owner ++ '/' :: tail)
    simpa only [List.append_assoc, List.cons_append, List.nil_append] using hafter
  have hsecure : ∃ rest, afterLiteral "http".toList url = some rest ∧
      (afterLiteral "s".toList rest).getD rest =
        "://".toList ++ (host ++ '/' :: (owner ++ '/' :: tail)) := by
    rw [h.shape]
    rcases h.scheme_folds with hscheme | hscheme
    · exact ⟨_, afterLiteral_append hscheme _, rfl⟩
    · have hsplit : Folds ("http".toList ++ "s".toList) scheme := hscheme
      obtain ⟨front, back, rfl, hfront, hback⟩ := hsplit.append_inv
      rw [List.append_assoc]
      refine ⟨_, afterLiteral_append hfront _, ?_⟩
      rw [afterLiteral_append hback]
      rfl
  obtain ⟨rest, hhttp, hrest⟩ := hsecure
  unfold matchGithubUrl
  rw [hhttp]
  dsimp only
  rw [hrest, hpath]
  have hempty : owner.isEmpty = false := by
    simpa using h.owner_ne
  dsimp only
  rw [takeWhile_segment h.owner_segment, hempty, List.drop_left]
  rfl

/-- What stands between the scheme and the owner. -/
theorem folds_host {text : List Char} (h : Folds "://github.com/".toList text) :
    ∃ host, text = "://".toList ++ (host ++ ['/']) ∧ Folds "github.com".toList host := by
  have hsplit : Folds ("://".toList ++ ("github.com".toList ++ "/".toList)) text := h
  obtain ⟨front, rest, rfl, hfront, hrest⟩ := hsplit.append_inv
  obtain ⟨host, slash, rfl, hhost, hslash⟩ := hrest.append_inv
  refine ⟨host, ?_, hhost⟩
  rw [hfront.eq (by decide), hslash.eq (by decide)]
  rfl

theorem not_mem_takeWhile (path : List Char) : '/' ∉ path.takeWhile (· ≠ '/') := by
  intro h
  simpa using List.mem_takeWhile_imp h

theorem takeWhile_slash (path : List Char) :
    path.takeWhile (· ≠ '/') = path ∨
      ∃ tail, path = path.takeWhile (· ≠ '/') ++ '/' :: tail := by
  induction path with
  | nil => exact Or.inl rfl
  | cons c path ih =>
    by_cases hc : c = '/'
    · subst hc
      exact Or.inr ⟨path, by simp⟩
    · have hcons : (c :: path).takeWhile (· ≠ '/') = c :: path.takeWhile (· ≠ '/') := by
        simp [hc]
      rw [hcons]
      rcases ih with hwhole | ⟨tail, htail⟩
      · exact Or.inl (by rw [hwhole])
      · exact Or.inr ⟨tail, by rw [List.cons_append, ← htail]⟩

/-- The converse: what the pattern matches has this shape. -/
theorem matchGithubUrl_some (h : matchGithubUrl url = some (owner, repo)) :
    ∃ scheme host tail, GithubUrl url scheme host owner tail ∧ repoGroup tail = some repo := by
  unfold matchGithubUrl at h
  cases hhttp : afterLiteral "http".toList url with
  | none =>
    rw [hhttp] at h
    cases h
  | some rest =>
    rw [hhttp] at h
    dsimp only at h
    generalize hsecure : (afterLiteral "s".toList rest).getD rest = secure at h
    cases hpath : afterLiteral "://github.com/".toList secure with
    | none =>
      rw [hpath] at h
      cases h
    | some path =>
      rw [hpath] at h
      obtain ⟨first, hurl, hfirst⟩ := afterLiteral_some hhttp
      obtain ⟨middle, hmiddle, hfold⟩ := afterLiteral_some hpath
      obtain ⟨host, hhost, hfolds⟩ := folds_host hfold
      have hscheme : ∃ scheme, url = scheme ++ secure ∧
          (Folds "http".toList scheme ∨ Folds "https".toList scheme) := by
        cases hs : afterLiteral "s".toList rest with
        | none =>
          rw [hs] at hsecure
          exact ⟨first, hsecure ▸ hurl, Or.inl hfirst⟩
        | some after =>
          rw [hs] at hsecure
          obtain ⟨letter, hletter, hfoldS⟩ := afterLiteral_some hs
          refine ⟨first ++ letter, ?_, Or.inr (List.rel_append hfirst hfoldS)⟩
          rw [hurl, hletter, List.append_assoc, ← hsecure]
          rfl
      obtain ⟨scheme, hshape, hfoldScheme⟩ := hscheme
      dsimp only at h
      rcases takeWhile_slash path with hwhole | ⟨tail, htail⟩
      · -- without a slash after it there is no owner
        rw [hwhole, List.drop_length] at h
        split at h <;> cases h
      · have hne : path.takeWhile (· ≠ '/') ≠ [] := by
          intro hempty
          rw [hempty] at h
          cases h
        have hslash := not_mem_takeWhile path
        generalize path.takeWhile (· ≠ '/') = first at htail hne hslash h
        subst htail
        have hempty : first.isEmpty = false := by
          simpa using hne
        rw [hempty, List.drop_left] at h
        change (repoGroup tail).map (fun repo => (first, repo)) = some (owner, repo) at h
        obtain ⟨found, hfound, heq⟩ := Option.map_eq_some_iff.mp h
        cases heq
        refine ⟨scheme, host, tail, ⟨?_, hfoldScheme, hfolds, hne, hslash⟩, hfound⟩
        rw [hshape, hmiddle, hhost]
        simp only [List.append_assoc, List.cons_append, List.nil_append]

end

def Ending (rest : List Char) : Prop :=
  ∃ ext newline, rest = ext ++ newline ∧ (ext = [] ∨ Folds ".git".toList ext) ∧
    (newline = [] ∨ newline = ['\n'])

theorem atEnd_iff {rest : List Char} : atEnd rest = true ↔ rest = [] ∨ rest = ['\n'] := by
  simp [atEnd]

theorem ending_iff {rest : List Char} :
    (atEnd rest || (afterLiteral ".git".toList rest).any atEnd) = true ↔ Ending rest := by
  rw [Bool.or_eq_true, atEnd_iff]
  constructor
  · rintro (hend | hgit)
    · exact ⟨[], rest, rfl, Or.inl rfl, hend⟩
    · cases hafter : afterLiteral ".git".toList rest with
      | none =>
        rw [hafter] at hgit
        cases hgit
      | some newline =>
        rw [hafter, Option.any_some, atEnd_iff] at hgit
        obtain ⟨ext, hshape, hext⟩ := afterLiteral_some hafter
        exact ⟨ext, newline, hshape, Or.inr hext, hgit⟩
  · rintro ⟨ext, newline, rfl, rfl | hext, hnewline⟩
    · exact Or.inl hnewline
    · right
      rw [afterLiteral_append hext, Option.any_some, atEnd_iff]
      exact hnewline

structure Shortest (tail repo rest : List Char) : Prop where
  shape : tail = repo ++ rest
  ne : repo ≠ []
  segment : '/' ∉ repo
  ending : Ending rest
  least : ∀ p q, repo = p ++ q → p ≠ [] → q ≠ [] → ¬ Ending (q ++ rest)

section
variable {tail repo rest : List Char}

theorem repoGroup_cons {c : Char} (hc : c ≠ '/') (tail : List Char) :
    (Ending tail ∧ repoGroup (c :: tail) = some [c]) ∨
      ¬ Ending tail ∧ repoGroup (c :: tail) = (repoGroup tail).map (c :: ·) := by
  rw [repoGroup, if_neg hc]
  by_cases hend : (atEnd tail || (afterLiteral ".git".toList tail).any atEnd) = true
  · rw [if_pos hend]
    exact Or.inl ⟨ending_iff.mp hend, rfl⟩
  · rw [if_neg hend]
    exact Or.inr ⟨fun h => hend (ending_iff.mpr h), rfl⟩

theorem repoGroup_some (h : repoGroup tail = some repo) : ∃ rest, Shortest tail repo rest := by
  induction tail generalizing repo with
  | nil => cases h
  | cons c tail ih =>
    by_cases hc : c = '/'
    · rw [repoGroup, if_pos hc] at h
      cases h
    rcases repoGroup_cons hc tail with ⟨hend, hgroup⟩ | ⟨hend, hgroup⟩
    · rw [hgroup] at h
      cases h
      refine ⟨tail, rfl, List.cons_ne_nil _ _, by simpa using Ne.symm hc, hend, ?_⟩
      intro p q hsplit hp hq
      have hlength := congrArg List.length hsplit
      have hlp := List.length_pos_iff.mpr hp
      have hlq := List.length_pos_iff.mpr hq
      rw [List.length_append, List.length_singleton] at hlength
      omega
    · rw [hgroup] at h
      obtain ⟨name, hname, rfl⟩ := Option.map_eq_some_iff.mp h
      obtain ⟨rest, hshort⟩ := ih hname
      refine ⟨rest, by rw [hshort.shape]; rfl, List.cons_ne_nil _ _, ?_, hshort.ending, ?_⟩
      · intro hslash
        rcases List.mem_cons.mp hslash with heq | hmem
        · exact hc heq.symm
        · exact hshort.segment hmem
      · intro p q hsplit hp hq
        cases p with
        | nil => exact absurd rfl hp
        | cons d p =>
          obtain ⟨rfl, htail⟩ := List.cons.inj hsplit
          by_cases hempty : p = []
          · subst hempty
            change name = q at htail
            rw [← htail, ← hshort.shape]
            exact hend
          · exact hshort.least p q htail hempty hq

theorem Shortest.group (h : Shortest tail repo rest) : repoGroup tail = some repo := by
  obtain ⟨rfl, hne, hslash, hending, hleast⟩ := h
  induction repo with
  | nil => exact absurd rfl hne
  | cons c repo ih =>
    have hc : c ≠ '/' := fun heq => hslash (heq ▸ List.mem_cons_self)
    have hsegment : '/' ∉ repo := fun hmem => hslash (List.mem_cons_of_mem _ hmem)
    rw [List.cons_append]
    by_cases hempty : repo = []
    · subst hempty
      rcases repoGroup_cons hc ([] ++ rest) with ⟨-, hgroup⟩ | ⟨hend, -⟩
      · exact hgroup
      · exact absurd hending hend
    · rcases repoGroup_cons hc (repo ++ rest) with ⟨hend, -⟩ | ⟨-, hgroup⟩
      · exact absurd hend (hleast [c] repo rfl (List.cons_ne_nil _ _) hempty)
      · rw [hgroup, ih hempty hsegment ?_]
        · rfl
        · intro p q hsplit hp hq
          exact hleast (c :: p) q (by rw [hsplit]; rfl) (List.cons_ne_nil _ _) hq

end

def PathText (text : List Char) : Prop :=
  ∀ c ∈ text, c ∉ ['\t', '\r', '\n', '?', '#']

def pathOf (rest : List Char) : List Char :=
  dropParams (((rest.filter fun c => c ≠ '\t' && c ≠ '\r' && c ≠ '\n').takeWhile
    (· ≠ '#')).takeWhile (· ≠ '?'))

section
variable {tables : UrlTables} {scheme host rest owner : List Char}

theorem scheme_lower (h : Folds "http".toList scheme ∨ Folds "https".toList scheme)
    (hplain : Char.ofNat 0x17f ∉ scheme) :
    scheme.map Char.toLower = "http".toList ∨ scheme.map Char.toLower = "https".toList := by
  have hlower : ∀ {pattern text : List Char}, Folds pattern text → 'i' ∉ pattern →
      Char.ofNat 0x17f ∉ text → text.map Char.toLower = pattern := by
    intro pattern text h
    induction h with
    | nil => exact fun _ _ => rfl
    | @cons p c pattern text hc _ ih =>
      intro hi hs
      rw [List.mem_cons, not_or] at hi hs
      have hfold : c.toLower = p := by
        unfold foldsTo at hc
        simp only [Bool.or_eq_true, Bool.and_eq_true, decide_eq_true_eq] at hc
        rcases hc with (hlow | ⟨hp, -⟩) | ⟨-, hlong⟩
        · exact hlow
        · exact absurd hp.symm hi.1
        · exact absurd hlong.symm hs.1
      rw [List.map_cons, hfold, ih hi.2 hs.2]
  rcases h with h | h
  · exact Or.inl (hlower h (by decide) hplain)
  · exact Or.inr (hlower h (by decide) hplain)

theorem scheme_forall {q : Char → Bool}
    (h : Folds "http".toList scheme ∨ Folds "https".toList scheme)
    (hq : ("https".toList.all fun p => (variants p).all q) = true) : ∀ c ∈ scheme, q c = true := by
  rcases h with h | h
  · apply h.forall
    rw [List.all_eq_true] at hq ⊢
    intro p hp
    exact hq p (List.mem_append_left ['s'] hp)
  · exact h.forall hq

theorem scheme_ne (h : Folds "http".toList scheme ∨ Folds "https".toList scheme) :
    scheme ≠ [] := by
  rintro rfl
  rcases h with h | h <;> cases h

theorem takeWhile_stop {p : Char → Bool} {front : List Char} {c : Char}
    (hfront : ∀ d ∈ front, p d = true) (hc : p c = false) (rest : List Char) :
    (front ++ c :: rest).takeWhile p = front := by
  rw [List.takeWhile_append_of_pos hfront]
  simp [hc]

theorem splitScheme_github (hs : Folds "http".toList scheme ∨ Folds "https".toList scheme)
    (hplain : Char.ofNat 0x17f ∉ scheme) (rest : List Char) :
    splitScheme (scheme ++ ':' :: rest) = (scheme.map Char.toLower, rest) := by
  have hcolon : ∀ c ∈ scheme, decide (c ≠ ':') = true := scheme_forall hs (by decide)
  have hchars : scheme.all isSchemeChar = true := by
    rw [List.all_eq_true]
    intro c hc
    have hor := scheme_forall (q := fun c => c == Char.ofNat 0x17f || isSchemeChar c) hs
      (by decide) c hc
    rw [Bool.or_eq_true, beq_iff_eq] at hor
    rcases hor with rfl | hchar
    · exact absurd hc hplain
    · exact hchar
  have hhead : scheme.head?.any Char.isAlpha = true := by
    cases scheme with
    | nil => exact absurd rfl (scheme_ne hs)
    | cons c scheme =>
      have hor := scheme_forall (q := fun c => c == Char.ofNat 0x17f || c.isAlpha) hs
        (by decide) c List.mem_cons_self
      rw [Bool.or_eq_true, beq_iff_eq] at hor
      rcases hor with rfl | halpha
      · exact absurd List.mem_cons_self hplain
      · exact halpha
  unfold splitScheme
  rw [takeWhile_stop hcolon rfl]
  dsimp only
  rw [List.drop_left, hhead, hchars]
  rfl

theorem splitNetloc_github (hh : Folds "github.com".toList host) (rest : List Char) :
    splitNetloc ('/' :: '/' :: (host ++ '/' :: rest)) = (host, '/' :: rest) := by
  have hhost : ∀ c ∈ host, (c ≠ '/' && c ≠ '?' && c ≠ '#') = true := hh.forall (by decide)
  have hnetloc := takeWhile_stop hhost (c := '/') rfl rest
  change ((host ++ '/' :: rest).takeWhile _, _) = _
  rw [hnetloc, List.drop_left]

/-- The parts that `urlparse` finds in a text of the pattern's shape. -/
theorem urlparse_github (hs : Folds "http".toList scheme ∨ Folds "https".toList scheme)
    (hplain : Char.ofNat 0x17f ∉ scheme) (hh : Folds "github.com".toList host) :
    urlparse tables (String.ofList (scheme ++ ("://".toList ++ (host ++ '/' :: rest)))) =
      if tables.netlocAllowed (String.ofList host) then
        .ok ⟨scheme.map Char.toLower, host, pathOf ('/' :: rest)⟩
      else .error (valueError (tables.netlocRefusal (String.ofList host))) := by
  have hfront : ∀ text : List Char,
      (scheme ++ text).dropWhile isC0ControlOrSpace = scheme ++ text := by
    intro text
    have hcontrol : ∀ c ∈ scheme, (!isC0ControlOrSpace c) = true := scheme_forall hs (by decide)
    cases scheme with
    | nil => exact absurd rfl (scheme_ne hs)
    | cons c scheme =>
      rw [List.cons_append, List.dropWhile_cons, if_neg]
      simpa using hcontrol c List.mem_cons_self
  have hscheme : scheme.filter (fun c => c ≠ '\t' && c ≠ '\r' && c ≠ '\n') = scheme :=
    List.filter_eq_self.mpr (scheme_forall hs (by decide))
  have hhost : host.filter (fun c => c ≠ '\t' && c ≠ '\r' && c ≠ '\n') = host :=
    List.filter_eq_self.mpr (hh.forall (by decide))
  have hopen : host.contains '[' = false := by
    rw [← Bool.not_eq_true, List.contains_iff_mem]
    exact hh.not_mem (by decide)
  have hclose : host.contains ']' = false := by
    rw [← Bool.not_eq_true, List.contains_iff_mem]
    exact hh.not_mem (by decide)
  have hparams : hasParams (scheme.map Char.toLower) = true := by
    rcases scheme_lower hs hplain with h | h <;> rw [h] <;> decide
  have hslash : ('/' :: rest).filter (fun c => c ≠ '\t' && c ≠ '\r' && c ≠ '\n') =
      '/' :: rest.filter fun c => c ≠ '\t' && c ≠ '\r' && c ≠ '\n' := rfl
  unfold urlparse
  dsimp only
  rw [String.toList_ofList, hfront, List.filter_append, List.filter_append, List.filter_append,
    hscheme, hhost, hslash]
  have hcolon : ∀ text : List Char, ("://".toList.filter fun c =>
      c ≠ '\t' && c ≠ '\r' && c ≠ '\n') ++ text = ':' :: '/' :: '/' :: text := fun _ => rfl
  rw [hcolon, splitScheme_github hs hplain]
  dsimp only
  rw [splitNetloc_github hh]
  dsimp only
  rw [hopen, hclose, hparams, if_neg (by decide), if_pos rfl]
  cases tables.netlocAllowed (String.ofList host) <;> rfl

/-- A long `s` is not a character of a scheme. -/
theorem urlparse_longS (hs : Folds "http".toList scheme ∨ Folds "https".toList scheme)
    (hlong : Char.ofNat 0x17f ∈ scheme) {parsed : ParseResult}
    (h : urlparse tables (String.ofList (scheme ++ ':' :: rest)) = .ok parsed) :
    parsed.scheme = [] := by
  have hfront : (scheme ++ ':' :: rest).dropWhile isC0ControlOrSpace = scheme ++ ':' :: rest := by
    have hcontrol : ∀ c ∈ scheme, (!isC0ControlOrSpace c) = true := scheme_forall hs (by decide)
    cases scheme with
    | nil => cases hlong
    | cons c scheme =>
      rw [List.cons_append, List.dropWhile_cons, if_neg]
      simpa using hcontrol c List.mem_cons_self
  have hscheme : scheme.filter (fun c => c ≠ '\t' && c ≠ '\r' && c ≠ '\n') = scheme :=
    List.filter_eq_self.mpr (scheme_forall hs (by decide))
  have hcolon : ∀ c ∈ scheme, decide (c ≠ ':') = true := scheme_forall hs (by decide)
  have hchars : scheme.all isSchemeChar = false := by
    rw [← Bool.not_eq_true, List.all_eq_true]
    intro hall
    exact absurd (hall _ hlong) (by decide)
  have hsplit : ∀ text, (splitScheme (scheme ++ ':' :: text)).1 = [] := by
    intro text
    unfold splitScheme
    rw [takeWhile_stop hcolon rfl]
    dsimp only
    rw [List.drop_left, hchars, Bool.and_false]
    rfl
  have htext : (':' :: rest).filter (fun c => c ≠ '\t' && c ≠ '\r' && c ≠ '\n') =
      ':' :: rest.filter fun c => c ≠ '\t' && c ≠ '\r' && c ≠ '\n' := rfl
  unfold urlparse at h
  dsimp only at h
  rw [String.toList_ofList, hfront, List.filter_append, hscheme, htext, hsplit] at h
  split at h
  · cases h
  · split at h
    · cases h
    · cases h
      rfl

/-- Only what follows the last slash is stripped. -/
theorem strip_github (hs : Folds "http".toList scheme ∨ Folds "https".toList scheme)
    (middle tail : List Char) :
    strip (String.ofList (scheme ++ (middle ++ '/' :: tail))) =
      String.ofList (scheme ++ (middle ++ '/' :: tail.rdropWhile isSpace)) := by
  have hfront : (scheme ++ (middle ++ '/' :: tail)).dropWhile isSpace =
      scheme ++ (middle ++ '/' :: tail) := by
    have hspace : ∀ c ∈ scheme, (!isSpace c) = true := scheme_forall hs (by decide)
    cases scheme with
    | nil => exact absurd rfl (scheme_ne hs)
    | cons c scheme =>
      rw [List.cons_append, List.dropWhile_cons, if_neg]
      simpa using hspace c List.mem_cons_self
  have hback : ∀ front : List Char,
      (front ++ '/' :: tail).rdropWhile isSpace = front ++ '/' :: tail.rdropWhile isSpace := by
    intro front
    clear hfront
    induction tail using List.reverseRecOn with
    | nil => exact List.rdropWhile_concat_neg isSpace front '/' (by decide)
    | append_singleton tail c ih =>
      by_cases hc : isSpace c = true
      · rw [List.rdropWhile_concat_pos isSpace tail c hc, ← List.cons_append, ← List.append_assoc,
          List.rdropWhile_concat_pos isSpace _ c hc]
        exact ih
      · rw [List.rdropWhile_concat_neg isSpace tail c hc, ← List.cons_append, ← List.append_assoc,
          List.rdropWhile_concat_neg isSpace _ c hc]
  rw [← String.toList_inj, toList_strip, String.toList_ofList, hfront, String.toList_ofList,
    ← List.append_assoc, hback, List.append_assoc]

theorem mem_intercalate {separator part : List Char} {parts : List (List Char)} {c : Char}
    (h : part ∈ parts) (hc : c ∈ part) : c ∈ separator.intercalate parts := by
  induction parts with
  | nil => cases h
  | cons first parts ih =>
    cases parts with
    | nil =>
      obtain rfl := List.mem_singleton.mp h
      rw [List.intercalate_singleton]
      exact hc
    | cons second parts =>
      rw [List.intercalate_cons_cons, List.mem_append, List.mem_append]
      rcases List.mem_cons.mp h with rfl | h
      · exact Or.inl (Or.inl hc)
      · exact Or.inr (ih h)

theorem mem_of_mem_splitOn {separator c : Char} {chars part : List Char}
    (h : part ∈ chars.splitOn separator) (hc : c ∈ part) : c ∈ chars := by
  have hjoin : [separator].intercalate (chars.splitOn separator) = chars :=
    List.intercalate_splitOn separator
  rw [← hjoin]
  exact mem_intercalate h hc

theorem mem_dropParams {path : List Char} {c : Char} (h : c ∈ dropParams path) : c ∈ path := by
  unfold dropParams at h
  rcases List.mem_append.mp h with h | h
  · exact List.mem_of_mem_take h
  · exact List.mem_reverse.mp ((List.takeWhile_sublist _).mem
      (List.mem_reverse.mp ((List.takeWhile_sublist _).mem h)))

theorem pathOf_pathText {c : Char} {rest : List Char} (h : c ∈ pathOf rest) :
    c ∉ ['\t', '\r', '\n', '?', '#'] := by
  have hpath := mem_dropParams h
  have hquery := List.mem_takeWhile_imp hpath
  have hmem := (List.takeWhile_sublist _).mem hpath
  have hfragment := List.mem_takeWhile_imp hmem
  have hkept := (List.mem_filter.mp ((List.takeWhile_sublist _).mem hmem)).2
  simp only [ne_eq, decide_not, Bool.not_eq_true', decide_eq_false_iff_not, Bool.and_eq_true]
    at hquery hfragment hkept
  simp [hquery, hfragment, hkept]

theorem filter_pathText {text : List Char} (h : PathText text) :
    text.filter (fun c => c ≠ '\t' && c ≠ '\r' && c ≠ '\n') = text := by
  rw [List.filter_eq_self]
  intro c hc
  have hno := h c hc
  simp only [List.mem_cons, not_or] at hno
  simp [hno]

theorem takeWhile_pathText {text : List Char} (h : PathText text) :
    (text.takeWhile (· ≠ '#')).takeWhile (· ≠ '?') = text := by
  have hno : ∀ c ∈ text, c ≠ '#' ∧ c ≠ '?' := by
    intro c hc
    have hmem := h c hc
    simp only [List.mem_cons, not_or] at hmem
    exact ⟨hmem.2.2.2.2.1, hmem.2.2.2.1⟩
  have hfragment : text.takeWhile (· ≠ '#') = text :=
    List.takeWhile_eq_self_iff.mpr fun c hc => by simpa using (hno c hc).1
  have hquery : text.takeWhile (· ≠ '?') = text :=
    List.takeWhile_eq_self_iff.mpr fun c hc => by simpa using (hno c hc).2
  rw [hfragment, hquery]

/-- The path of an owner and a last segment that loses its parameters. -/
theorem pathOf_segments {body : List Char} (ho : PathText owner) (hb : PathText body)
    (hslash : '/' ∉ body) :
    pathOf ('/' :: (owner ++ '/' :: body)) =
      '/' :: (owner ++ '/' :: body.takeWhile (· ≠ ';')) := by
  have htext : PathText ('/' :: (owner ++ '/' :: body)) := by
    intro c hc
    rcases List.mem_cons.mp hc with rfl | hc
    · decide
    rcases List.mem_append.mp hc with hc | hc
    · exact ho c hc
    rcases List.mem_cons.mp hc with rfl | hc
    · decide
    · exact hb c hc
  have hlast : (('/' :: (owner ++ '/' :: body)).reverse.takeWhile (· ≠ '/')).reverse = body := by
    have hreverse : ('/' :: (owner ++ '/' :: body)).reverse =
        body.reverse ++ '/' :: (owner.reverse ++ ['/']) := by simp
    rw [hreverse, takeWhile_segment (by simpa using hslash), List.reverse_reverse]
  have hfront : '/' :: (owner ++ '/' :: body) = ('/' :: (owner ++ ['/'])) ++ body := by simp
  unfold pathOf
  rw [filter_pathText htext, takeWhile_pathText htext]
  unfold dropParams
  dsimp only
  rw [hlast, hfront, List.length_append, Nat.add_sub_cancel, List.take_left]
  simp

theorem segments {body : List Char} (hne : owner ≠ []) (ho : '/' ∉ owner) (hb : '/' ∉ body) :
    (('/' :: (owner ++ '/' :: body)).splitOn '/').filter (!·.isEmpty) =
      owner :: if body = [] then [] else [body] := by
  have hsplit : ('/' :: (owner ++ '/' :: body)).splitOn '/' = [[], owner, body] := by
    have hjoin : '/' :: (owner ++ '/' :: body) = ['/'].intercalate [[], owner, body] := by
      simp [List.intercalate_cons_cons]
    rw [hjoin]
    refine List.splitOn_intercalate '/' ?_ (List.cons_ne_nil _ _)
    simp [ho, hb]
  rw [hsplit]
  by_cases hbody : body = []
  · simp [hbody, hne]
  · simp [hbody, hne]

end

structure UrlTables.Documented (tables : UrlTables) : Prop where
  lower : LowersAscii tables.lower
  netloc : ∀ netloc : String, (∀ c ∈ netloc.toList, c.toNat < 128 ∧ c ≠ '[') →
    tables.netlocAllowed netloc = true

def cleanUrl (owner repo : List Char) : String :=
  String.ofList ("https://github.com/".toList ++ owner ++ '/' :: repo)

def pathParts (path : List Char) : List (List Char) :=
  (path.splitOn '/').filter (!·.isEmpty)

section
variable {settings : GitSettings} {owner repo : List Char}

theorem github_ascii : ∀ c ∈ "github.com".toList, c.toNat < 128 ∧ c ≠ '[' := by
  have hall : ("github.com".toList.all fun c => decide (c.toNat < 128) && c != '[') = true := by
    decide
  intro c hc
  simpa using List.all_eq_true.mp hall c hc

theorem cleanUrl_shape (hne : owner ≠ []) (hslash : '/' ∉ owner) (repo : List Char) :
    GithubUrl (cleanUrl owner repo).toList "https".toList "github.com".toList owner repo where
  shape := by
    unfold cleanUrl
    rw [String.toList_ofList, List.append_assoc]
    rfl
  scheme_folds := Or.inr (Folds.refl _ (by decide))
  host_folds := Folds.refl _ (by decide)
  owner_ne := hne
  owner_segment := hslash

theorem urlHost_clean (hd : settings.tables.Documented) (hne : owner ≠ []) (hslash : '/' ∉ owner)
    (repo : List Char) : urlHost settings (cleanUrl owner repo) = .ok "github.com" := by
  have hshape := (cleanUrl_shape hne hslash repo).shape
  have htext : cleanUrl owner repo = String.ofList ("https".toList ++ ("://".toList ++
      ("github.com".toList ++ '/' :: (owner ++ '/' :: repo)))) := by
    rw [← hshape, String.ofList_toList]
  have hnetloc : settings.tables.netlocAllowed (String.ofList "github.com".toList) = true :=
    hd.netloc _ github_ascii
  have hlower : settings.tables.lower "github.com" = "github.com" := by
    rw [hd.lower _ fun c hc => (github_ascii c hc).1]
    rfl
  unfold urlHost
  rw [htext, urlparse_github (Or.inr (Folds.refl _ (by decide))) (by decide)
    (Folds.refl _ (by decide)), if_pos hnetloc]
  have hhost : ∀ scheme path : List Char,
      ParseResult.hostname settings.tables ⟨scheme, "github.com".toList, path⟩ =
        some (settings.tables.lower "github.com" ++ "") := fun _ _ => rfl
  change Except.ok (settings.tables.lower ((ParseResult.hostname _ _).getD "")) = _
  rw [hhost, hlower, Option.getD_some]
  change Except.ok (settings.tables.lower "github.com") = _
  rw [hlower]

theorem parse_clean (hd : settings.tables.Documented) (hhost : "github.com" ∈ settings.allowedHosts)
    (hne : owner ≠ []) (hslash : '/' ∉ owner) (repo : List Char) :
    parseGithubUrl settings (cleanUrl owner repo) =
      match repoGroup repo with
      | none => .error (valueError ("Invalid GitHub URL: " ++ cleanUrl owner repo))
      | some name => .ok (owner, name) := by
  have hcontains : (!settings.allowedHosts.contains "github.com") = false := by
    simpa using hhost
  unfold parseGithubUrl
  rw [except_bind_eq (urlHost_clean hd hne hslash repo), hcontains, if_neg Bool.false_ne_true,
    (cleanUrl_shape hne hslash repo).match]
  cases repoGroup repo <;> rfl

/-- What an accepted URL was normalised from. -/
theorem normalizeUrl_ok {url : String} {normalized : NormalizedRepo}
    (h : normalizeUrl settings url = .ok normalized) :
    ∃ parsed owner second rest, urlparse settings.tables (strip url) = .ok parsed ∧
      parsed.scheme ≠ [] ∧ pathParts parsed.path = owner :: second :: rest ∧
      (∃ pair, parseGithubUrl settings (cleanUrl owner (removeGitSuffix second)) = .ok pair) ∧
      normalized = ⟨cleanUrl owner (removeGitSuffix second), String.ofList owner,
        String.ofList (removeGitSuffix second), detectRef rest⟩ := by
  obtain ⟨parsed, hparsed, h⟩ := except_bind_ok h
  by_cases hscheme : parsed.scheme ≠ "http".toList ∧ parsed.scheme ≠ "https".toList
  · rw [if_pos hscheme] at h
    cases h
  · rw [if_neg hscheme] at h
    cases hparts : pathParts parsed.path with
    | nil =>
      unfold pathParts at hparts
      rw [hparts] at h
      cases h
    | cons owner parts =>
      unfold pathParts at hparts
      cases parts with
      | nil =>
        rw [hparts] at h
        cases h
      | cons second rest =>
        rw [hparts] at h
        obtain ⟨pair, hpair, h⟩ := except_bind_ok h
        refine ⟨parsed, owner, second, rest, hparsed, ?_, hparts, ⟨pair, hpair⟩, ?_⟩
        · intro hempty
          rw [hempty] at hscheme
          exact hscheme ⟨by decide, by decide⟩
        · exact (Except.ok.inj h).symm

theorem normalizeUrl_eq {url : String} {parsed : ParseResult} {second : List Char}
    {rest : List (List Char)} {pair : List Char × List Char}
    (hparsed : urlparse settings.tables (strip url) = .ok parsed)
    (hscheme : parsed.scheme = "http".toList ∨ parsed.scheme = "https".toList)
    (hparts : pathParts parsed.path = owner :: second :: rest)
    (hclean : parseGithubUrl settings (cleanUrl owner (removeGitSuffix second)) = .ok pair) :
    normalizeUrl settings url = .ok ⟨cleanUrl owner (removeGitSuffix second),
      String.ofList owner, String.ofList (removeGitSuffix second), detectRef rest⟩ := by
  have hno : ¬ (parsed.scheme ≠ "http".toList ∧ parsed.scheme ≠ "https".toList) := by
    rintro ⟨hhttp, hhttps⟩
    rcases hscheme with h | h
    · exact hhttp h
    · exact hhttps h
  unfold pathParts at hparts
  unfold normalizeUrl
  rw [except_bind_eq hparsed, if_neg hno, hparts]
  exact except_bind_eq hclean

end

def EndsInGit (name : List Char) : Prop :=
  ∃ front ext, name = front ++ ext ∧ Folds ".git".toList ext ∧ (front ≠ [] ∨ ext = ".git".toList)

structure StableName (name : List Char) : Prop where
  ne : name ≠ []
  params : ';' ∉ name
  trimmed : name.rdropWhile isSpace = name
  git : ¬ EndsInGit name

def lastSegment (tail : List Char) : List Char :=
  (tail.rdropWhile isSpace).takeWhile (· ≠ ';')

section
variable {name ext newline : List Char}

theorem removeGitSuffix_cases (name : List Char) :
    (∃ front, name = front ++ ".git".toList ∧ removeGitSuffix name = front) ∨
      ¬ ".git".toList <:+ name ∧ removeGitSuffix name = name := by
  unfold removeGitSuffix
  by_cases h : ".git".toList.isSuffixOf name = true
  · rw [if_pos h]
    obtain ⟨front, rfl⟩ := List.isSuffixOf_iff_suffix.mp h
    refine Or.inl ⟨front, rfl, ?_⟩
    rw [List.length_append]
    exact List.take_left
  · rw [if_neg h]
    exact Or.inr ⟨fun hsuffix => h (List.isSuffixOf_iff_suffix.mpr hsuffix), rfl⟩

theorem removeGitSuffix_isPrefix (name : List Char) : removeGitSuffix name <+: name := by
  rcases removeGitSuffix_cases name with ⟨front, hname, hremove⟩ | ⟨-, hremove⟩
  · rw [hremove]
    exact ⟨_, hname.symm⟩
  · rw [hremove]

theorem removeGitSuffix_git (front : List Char) :
    removeGitSuffix (front ++ ".git".toList) = front := by
  rcases removeGitSuffix_cases (front ++ ".git".toList) with ⟨found, hname, hremove⟩ | ⟨hno, -⟩
  · rw [hremove]
    exact (List.append_cancel_right hname).symm
  · exact absurd ⟨front, rfl⟩ hno

theorem StableName.removeGitSuffix (h : StableName name) : removeGitSuffix name = name := by
  rcases removeGitSuffix_cases name with ⟨front, hname, -⟩ | ⟨-, hremove⟩
  · exact absurd ⟨front, _, hname, Folds.refl _ (by decide), Or.inr rfl⟩ h.git
  · exact hremove

theorem newline_not_mem (h : ext = [] ∨ Folds ".git".toList ext) : '\n' ∉ ext := by
  rcases h with rfl | h
  · exact List.not_mem_nil
  · exact h.not_mem (by decide)

theorem PathText.no_newline (h : PathText name) : '\n' ∉ name :=
  fun hmem => h _ hmem (by decide)

theorem ending_body {body : List Char} (hbody : '\n' ∉ body)
    (hnewline : newline = [] ∨ newline = ['\n']) (h : Ending (body ++ newline)) :
    body = [] ∨ Folds ".git".toList body := by
  obtain ⟨ext, newline', hshape, hext, hnewline'⟩ := h
  have hno := newline_not_mem hext
  have heq : body = ext := by
    rcases hnewline with rfl | rfl <;> rcases hnewline' with rfl | rfl
    · simpa using hshape
    · have hmem : '\n' ∈ body ++ [] := by
        rw [hshape]
        simp
      exact absurd (by simpa using hmem) hbody
    · have hmem : '\n' ∈ ext ++ [] := by
        rw [← hshape]
        simp
      exact absurd (by simpa using hmem) hno
    · exact List.append_cancel_right hshape
  rw [heq]
  exact hext

/-- A name in front of `.git` is what the pattern finds. -/
theorem repoGroup_git (hne : name ≠ []) (hslash : '/' ∉ name) (hno : '\n' ∉ name)
    (hnewline : newline = [] ∨ newline = ['\n']) :
    repoGroup (name ++ (".git".toList ++ newline)) = some name := by
  refine Shortest.group ⟨rfl, hne, hslash,
    ⟨_, newline, rfl, Or.inr (Folds.refl _ (by decide)), hnewline⟩, ?_⟩
  rintro p q rfl - hq hending
  rw [← List.append_assoc] at hending
  have hbody : '\n' ∉ q ++ ".git".toList := by
    rw [List.mem_append, not_or]
    exact ⟨fun hmem => hno (List.mem_append_right _ hmem), by decide⟩
  rcases ending_body hbody hnewline hending with hempty | hfold
  · exact hq (List.append_eq_nil_iff.mp hempty).1
  · have hlength := hfold.length_eq
    rw [List.length_append] at hlength
    have hpos := List.length_pos_iff.mpr hq
    omega

/-- A stable name is what the pattern finds. -/
theorem StableName.repoGroup (h : StableName name) (hslash : '/' ∉ name) (hno : '\n' ∉ name)
    (hnewline : newline = [] ∨ newline = ['\n']) :
    PluginRegistry.repoGroup (name ++ newline) = some name := by
  refine Shortest.group ⟨rfl, h.ne, hslash, ⟨[], newline, rfl, Or.inl rfl, hnewline⟩, ?_⟩
  rintro p q rfl hp hq hending
  have hbody : '\n' ∉ q := fun hmem => hno (List.mem_append_right _ hmem)
  rcases ending_body hbody hnewline hending with hempty | hfold
  · exact hq hempty
  · exact h.git ⟨p, q, rfl, hfold, Or.inl hp⟩

theorem repoGroup_isSome (hne : name ≠ []) (hslash : '/' ∉ name) :
    ∃ found, repoGroup name = some found := by
  induction name with
  | nil => exact absurd rfl hne
  | cons c name ih =>
    have hc : c ≠ '/' := fun heq => hslash (heq ▸ List.mem_cons_self)
    rcases repoGroup_cons hc name with ⟨-, hgroup⟩ | ⟨hend, hgroup⟩
    · exact ⟨_, hgroup⟩
    · have hname : name ≠ [] := by
        rintro rfl
        exact hend ⟨[], [], rfl, Or.inl rfl, Or.inl rfl⟩
      obtain ⟨found, hfound⟩ := ih hname fun hmem => hslash (List.mem_cons_of_mem _ hmem)
      rw [hgroup, hfound]
      exact ⟨_, rfl⟩

theorem rdropWhile_newline (hnewline : newline = [] ∨ newline = ['\n']) (text : List Char) :
    (text ++ newline).rdropWhile isSpace = text.rdropWhile isSpace := by
  rcases hnewline with rfl | rfl
  · rw [List.append_nil]
  · exact List.rdropWhile_concat_pos isSpace text '\n' (by decide)

theorem rdropWhile_git (h : Folds ".git".toList ext) (name : List Char) :
    (name ++ ext).rdropWhile isSpace = name ++ ext := by
  have hsplit : Folds (".gi".toList ++ "t".toList) ext := h
  obtain ⟨front, last, rfl, -, hlast⟩ := hsplit.append_inv
  have hspace : ∀ c ∈ last, (!isSpace c) = true := hlast.forall (by decide)
  cases hlast with
  | cons hc hnil =>
    cases hnil
    rw [← List.append_assoc, List.rdropWhile_concat_neg]
    simpa using hspace _ List.mem_cons_self

theorem takeWhile_params (h : ';' ∉ name) : name.takeWhile (· ≠ ';') = name := by
  rw [List.takeWhile_eq_self_iff]
  intro c hc
  have hne : c ≠ ';' := by
    rintro rfl
    exact h hc
  simpa using hne

theorem lastSegment_git (hfold : Folds ".git".toList ext) (hparams : ';' ∉ name)
    (hnewline : newline = [] ∨ newline = ['\n']) :
    lastSegment (name ++ (ext ++ newline)) = name ++ ext := by
  unfold lastSegment
  rw [← List.append_assoc, rdropWhile_newline hnewline, rdropWhile_git hfold]
  apply takeWhile_params
  rw [List.mem_append, not_or]
  exact ⟨hparams, hfold.not_mem (by decide)⟩

theorem StableName.lastSegment (h : StableName name)
    (hnewline : newline = [] ∨ newline = ['\n']) :
    PluginRegistry.lastSegment (name ++ newline) = name := by
  unfold PluginRegistry.lastSegment
  rw [rdropWhile_newline hnewline, h.trimmed, takeWhile_params h.params]

/-- A name that `normalize_url` reads back, and that nothing shorter stands for, is stable. -/
theorem stableName_of_segment (hne : name ≠ [])
    (hleast : ∀ p q, name = p ++ q → p ≠ [] → q ≠ [] → ¬ Folds ".git".toList q)
    (hsegment : removeGitSuffix (lastSegment name) = name) : StableName name := by
  have htrim : name.rdropWhile isSpace <+: name := List.rdropWhile_prefix isSpace name
  have htake : lastSegment name <+: name.rdropWhile isSpace := List.takeWhile_prefix _
  have hremove := removeGitSuffix_isPrefix (lastSegment name)
  rw [hsegment] at hremove
  have hlast : lastSegment name = name :=
    ((htake.trans htrim).eq_of_length_le hremove.length_le)
  have htrimmed : name.rdropWhile isSpace = name :=
    htrim.eq_of_length_le (hremove.length_le.trans htake.length_le)
  refine ⟨hne, ?_, htrimmed, ?_⟩
  · intro hmem
    rw [← hlast] at hmem
    simpa using List.mem_takeWhile_imp hmem
  · rintro ⟨front, ext, hname, hfold, hfront | rfl⟩
    · refine hleast front ext hname hfront ?_ hfold
      rintro rfl
      cases hfold
    · rw [hlast, hname, removeGitSuffix_git] at hsegment
      have hlength := congrArg List.length hsegment
      rw [List.length_append] at hlength
      have hgit : ".git".toList.length = 4 := rfl
      omega

end

def PlainTail (tail : List Char) : Prop :=
  ∃ name newline, (newline = [] ∨ newline = ['\n']) ∧ PathText name ∧ '/' ∉ name ∧
    ((tail = name ++ (".git".toList ++ newline) ∧ name ≠ [] ∧ ';' ∉ name) ∨
      tail = name ++ newline ∧ StableName name)

def PlainUrl (url : List Char) : Prop :=
  ∃ scheme host owner tail, GithubUrl url scheme host owner tail ∧
    Char.ofNat 0x17f ∉ scheme ∧ PathText owner ∧ PlainTail tail

section
variable {settings : GitSettings} {url : String} {scheme host owner tail repo : List Char}

/-- `normalize_url` reads a text of the pattern's shape. -/
theorem GithubUrl.urlparse_strip (settings : GitSettings)
    (h : GithubUrl url.toList scheme host owner tail) (hplain : Char.ofNat 0x17f ∉ scheme) :
    urlparse settings.tables (strip url) =
      if settings.tables.netlocAllowed (String.ofList host) then
        .ok ⟨scheme.map Char.toLower, host,
          pathOf ('/' :: (owner ++ '/' :: tail.rdropWhile isSpace))⟩
      else .error (valueError (settings.tables.netlocRefusal (String.ofList host))) := by
  have htext : url = String.ofList (scheme ++
      (("://".toList ++ (host ++ '/' :: owner)) ++ '/' :: tail)) := by
    rw [← String.toList_inj, String.toList_ofList, h.shape]
    simp only [List.append_assoc, List.cons_append]
  rw [htext, strip_github h.scheme_folds]
  have hassoc : scheme ++ (("://".toList ++ (host ++ '/' :: owner)) ++
      '/' :: tail.rdropWhile isSpace) = scheme ++ ("://".toList ++
        (host ++ '/' :: (owner ++ '/' :: tail.rdropWhile isSpace))) := by
    simp only [List.append_assoc, List.cons_append]
  rw [hassoc]
  exact urlparse_github h.scheme_folds hplain h.host_folds

theorem GithubUrl.netlocAllowed (h : GithubUrl url.toList scheme host owner tail)
    (hplain : Char.ofNat 0x17f ∉ scheme) {name : String} (hhost : urlHost settings url = .ok name) :
    settings.tables.netlocAllowed (String.ofList host) = true := by
  have htext : url = String.ofList (scheme ++ ("://".toList ++
      (host ++ '/' :: (owner ++ '/' :: tail)))) := by
    rw [← h.shape, String.ofList_toList]
  unfold urlHost at hhost
  rw [htext, urlparse_github h.scheme_folds hplain h.host_folds] at hhost
  by_cases hallowed : settings.tables.netlocAllowed (String.ofList host) = true
  · exact hallowed
  · rw [if_neg hallowed] at hhost
    cases hhost

/-- What `normalize_url` makes of a URL whose path is as it is written. -/
theorem GithubUrl.pathParts (settings : GitSettings)
    (h : GithubUrl url.toList scheme host owner tail) (hplain : Char.ofNat 0x17f ∉ scheme)
    (hallowed : settings.tables.netlocAllowed (String.ofList host) = true)
    (howner : PathText owner) (htail : PathText (tail.rdropWhile isSpace))
    (hslash : '/' ∉ tail.rdropWhile isSpace) :
    ∃ parsed, urlparse settings.tables (strip url) = .ok parsed ∧
      (parsed.scheme = "http".toList ∨ parsed.scheme = "https".toList) ∧
      PluginRegistry.pathParts parsed.path =
        owner :: if lastSegment tail = [] then [] else [lastSegment tail] := by
  have hurl := h.urlparse_strip settings hplain
  rw [if_pos hallowed] at hurl
  refine ⟨_, hurl, scheme_lower h.scheme_folds hplain, ?_⟩
  unfold PluginRegistry.pathParts
  dsimp only
  rw [pathOf_segments howner htail hslash]
  apply segments h.owner_ne h.owner_segment
  intro hmem
  exact hslash ((List.takeWhile_sublist _).mem hmem)

theorem parseGithubUrl_ok (h : parseGithubUrl settings url = .ok (owner, repo)) :
    (∃ name, urlHost settings url = .ok name) ∧ matchGithubUrl url.toList = some (owner, repo) := by
  obtain ⟨name, hname, h⟩ := except_bind_ok h
  refine ⟨⟨name, hname⟩, ?_⟩
  by_cases hhost : (!settings.allowedHosts.contains name) = true
  · rw [if_pos hhost] at h
    cases h
  · rw [if_neg hhost] at h
    cases hmatch : matchGithubUrl url.toList with
    | none =>
      rw [hmatch] at h
      cases h
    | some pair =>
      rw [hmatch] at h
      rw [Except.ok.inj h]

/-- A plain tail names the repository that the pattern finds. -/
theorem PlainTail.segment (h : PlainTail tail) (hrepo : repoGroup tail = some repo) :
    repo ≠ [] ∧ '/' ∉ repo ∧ lastSegment tail ≠ [] ∧ removeGitSuffix (lastSegment tail) = repo ∧
      PathText (tail.rdropWhile isSpace) ∧ '/' ∉ tail.rdropWhile isSpace := by
  obtain ⟨name, newline, hnewline, htext, hslash, ⟨rfl, hne, hparams⟩ | ⟨rfl, hstable⟩⟩ := h
  · rw [repoGroup_git hne hslash htext.no_newline hnewline] at hrepo
    obtain rfl := Option.some.inj hrepo
    have hfold : Folds ".git".toList ".git".toList := Folds.refl _ (by decide)
    have hbody : (name ++ (".git".toList ++ newline)).rdropWhile isSpace =
        name ++ ".git".toList := by
      rw [← List.append_assoc, rdropWhile_newline hnewline, rdropWhile_git hfold]
    rw [lastSegment_git hfold hparams hnewline, hbody, removeGitSuffix_git]
    refine ⟨hne, hslash, by simp, rfl, ?_, ?_⟩
    · have hgit : PathText ".git".toList := by
        intro c hc
        have hall : (".git".toList.all fun c =>
            !(['\t', '\r', '\n', '?', '#'].contains c)) = true := by decide
        simpa using List.all_eq_true.mp hall c hc
      intro c hc
      rcases List.mem_append.mp hc with hc | hc
      · exact htext c hc
      · exact hgit c hc
    · rw [List.mem_append, not_or]
      exact ⟨hslash, by decide⟩
  · rw [hstable.repoGroup hslash htext.no_newline hnewline] at hrepo
    obtain rfl := Option.some.inj hrepo
    rw [hstable.lastSegment hnewline, rdropWhile_newline hnewline, hstable.trimmed]
    exact ⟨hstable.ne, hslash, hstable.ne, hstable.removeGitSuffix, htext, hslash⟩

theorem PlainUrl.normalizes (hd : settings.tables.Documented)
    (hhost : "github.com" ∈ settings.allowedHosts) (h : PlainUrl url.toList)
    (hparse : parseGithubUrl settings url = .ok (owner, repo)) :
    ∃ normalized, normalizeUrl settings url = .ok normalized ∧
      normalized.owner = String.ofList owner ∧ normalized.repo = String.ofList repo := by
  obtain ⟨scheme, host, first, tail, hurl, hplain, howner, htail⟩ := h
  obtain ⟨⟨name, hname⟩, hmatch⟩ := parseGithubUrl_ok hparse
  rw [hurl.match] at hmatch
  obtain ⟨found, hfound, heq⟩ := Option.map_eq_some_iff.mp hmatch
  cases heq
  obtain ⟨hne, hslash, hsegment, hremove, htext, htextSlash⟩ := htail.segment hfound
  obtain ⟨parsed, hparsed, hscheme, hparts⟩ :=
    hurl.pathParts settings hplain (hurl.netlocAllowed hplain hname) howner htext htextSlash
  rw [if_neg hsegment] at hparts
  obtain ⟨clean, hclean⟩ := repoGroup_isSome hne hslash
  have haccepted : parseGithubUrl settings (cleanUrl owner (removeGitSuffix (lastSegment tail))) =
      .ok (owner, clean) := by
    rw [parse_clean hd hhost hurl.owner_ne hurl.owner_segment, hremove, hclean]
  exact ⟨_, normalizeUrl_eq hparsed hscheme hparts haccepted, rfl, by rw [hremove]⟩

theorem mem_pathParts {path part : List Char} (h : part ∈ pathParts path) :
    part ≠ [] ∧ '/' ∉ part ∧ ∀ c ∈ part, c ∈ path := by
  obtain ⟨hsplit, hne⟩ := List.mem_filter.mp h
  refine ⟨?_, not_mem_of_mem_splitOn hsplit, fun c hc => mem_of_mem_splitOn hsplit hc⟩
  rintro rfl
  cases hne

theorem GithubUrl.no_longS (h : GithubUrl url.toList scheme host owner tail) {parsed : ParseResult}
    (hparsed : urlparse settings.tables (strip url) = .ok parsed) (hscheme : parsed.scheme ≠ []) :
    Char.ofNat 0x17f ∉ scheme := by
  intro hlong
  apply hscheme
  have htext : url = String.ofList (scheme ++
      (("://".toList ++ (host ++ '/' :: owner)) ++ '/' :: tail)) := by
    rw [← String.toList_inj, String.toList_ofList, h.shape]
    simp only [List.append_assoc, List.cons_append]
  rw [htext, strip_github h.scheme_folds] at hparsed
  exact urlparse_longS h.scheme_folds hlong hparsed

/-- A repository that `normalize_url` finds too stands in a plain tail. -/
theorem plainTail_of_segment (hgroup : repoGroup tail = some repo) (htext : PathText repo)
    (hsegment : removeGitSuffix (lastSegment tail) = repo) : PlainTail tail := by
  obtain ⟨rest, hshort⟩ := repoGroup_some hgroup
  obtain ⟨ext, newline, rfl, hext, hnewline⟩ := hshort.ending
  refine ⟨repo, newline, hnewline, htext, hshort.segment, ?_⟩
  have htail := hshort.shape
  rcases hext with rfl | hfold
  · right
    rw [List.nil_append] at htail
    refine ⟨htail, stableName_of_segment hshort.ne ?_ ?_⟩
    · intro p q hsplit hp hq hfold
      exact hshort.least p q hsplit hp hq ⟨q, newline, rfl, Or.inr hfold, hnewline⟩
    · rw [htail] at hsegment
      unfold lastSegment at hsegment ⊢
      rwa [rdropWhile_newline hnewline] at hsegment
  · left
    have hinit := removeGitSuffix_isPrefix (lastSegment tail)
    rw [hsegment] at hinit
    have hparams : ';' ∉ repo := by
      intro hmem
      simpa using List.mem_takeWhile_imp (hinit.subset hmem)
    rw [htail, lastSegment_git hfold hparams hnewline] at hsegment
    rcases removeGitSuffix_cases (repo ++ ext) with ⟨front, hname, hremove⟩ | ⟨-, hremove⟩
    · rw [hsegment] at hremove
      subst hremove
      rw [List.append_cancel_left hname] at htail
      exact ⟨htail, hshort.ne, hparams⟩
    · rw [hsegment] at hremove
      have hempty : ext = [] := by simpa using hremove
      subst hempty
      cases hfold

theorem plainUrl_of_normalizes (hparse : parseGithubUrl settings url = .ok (owner, repo))
    {normalized : NormalizedRepo} (h : normalizeUrl settings url = .ok normalized)
    (howner : normalized.owner = String.ofList owner)
    (hrepo : normalized.repo = String.ofList repo) : PlainUrl url.toList := by
  obtain ⟨⟨name, hname⟩, hmatch⟩ := parseGithubUrl_ok hparse
  obtain ⟨scheme, host, tail, hurl, hgroup⟩ := matchGithubUrl_some hmatch
  obtain ⟨parsed, first, second, rest, hparsed, hscheme, hparts, -, rfl⟩ := normalizeUrl_ok h
  obtain rfl := String.ofList_injective howner
  have hremove : removeGitSuffix second = repo := String.ofList_injective hrepo
  have hplain := hurl.no_longS hparsed hscheme
  have hallowed := hurl.netlocAllowed hplain hname
  have hpath := hurl.urlparse_strip settings hplain
  rw [if_pos hallowed, hparsed] at hpath
  have htextOf : ∀ part ∈ pathParts parsed.path, PathText part := by
    intro part hpart c hc
    have hmem := (mem_pathParts hpart).2.2 c hc
    rw [Except.ok.inj hpath] at hmem
    exact pathOf_pathText hmem
  have hfirst : PathText first := htextOf first (by rw [hparts]; simp)
  have hsecond : PathText second := htextOf second (by rw [hparts]; simp)
  have hrepoText : PathText repo := by
    intro c hc
    rw [← hremove] at hc
    exact hsecond c ((removeGitSuffix_isPrefix second).subset hc)
  have htail : PathText (tail.rdropWhile isSpace) ∧ '/' ∉ tail.rdropWhile isSpace := by
    obtain ⟨rest, hshort⟩ := repoGroup_some hgroup
    obtain ⟨ext, newline, rfl, hext, hnewline⟩ := hshort.ending
    rw [hshort.shape, ← List.append_assoc, rdropWhile_newline hnewline]
    have hbody : ∀ c ∈ repo ++ ext, c ∉ ['\t', '\r', '\n', '?', '#'] ∧ c ≠ '/' := by
      intro c hc
      rcases List.mem_append.mp hc with hc | hc
      · exact ⟨hrepoText c hc, fun heq => hshort.segment (heq ▸ hc)⟩
      · rcases hext with rfl | hfold
        · cases hc
        · have hclear := hfold.forall (q := fun c => !(['\t', '\r', '\n', '?', '#'].contains c) &&
            c != '/') (by decide) c hc
          simpa using hclear
    have hinit := List.rdropWhile_prefix isSpace (repo ++ ext)
    exact ⟨fun c hc => (hbody c (hinit.subset hc)).1,
      fun hmem => (hbody _ (hinit.subset hmem)).2 rfl⟩
  obtain ⟨parsed', hparsed', -, hparts'⟩ :=
    hurl.pathParts settings hplain hallowed hfirst htail.1 htail.2
  rw [hparsed] at hparsed'
  obtain rfl := Except.ok.inj hparsed'
  rw [hparts] at hparts'
  refine ⟨scheme, host, first, tail, hurl, hplain, hfirst,
    plainTail_of_segment hgroup hrepoText ?_⟩
  by_cases hempty : lastSegment tail = []
  · rw [if_pos hempty] at hparts'
    cases hparts'
  · rw [if_neg hempty] at hparts'
    cases hparts'
    exact hremove

theorem splitScheme_mem {chars : List Char} {c : Char} (h : c ∈ (splitScheme chars).2) :
    c ∈ chars := by
  unfold splitScheme at h
  dsimp only at h
  split at h
  · exact h
  · rename_i colon rest hdrop
    split at h
    · exact List.mem_of_mem_drop (hdrop ▸ List.mem_cons_of_mem _ h)
    · exact h

theorem splitNetloc_mem {chars : List Char} {c : Char} (h : c ∈ (splitNetloc chars).2) :
    c ∈ chars := by
  unfold splitNetloc at h
  split at h
  · exact List.mem_cons_of_mem _ (List.mem_cons_of_mem _ (List.mem_of_mem_drop h))
  · exact h

/-- No path that `urlparse` returns holds what ends a path. -/
theorem urlparse_pathText {tables : UrlTables} {text : String} {parsed : ParseResult}
    (h : urlparse tables text = .ok parsed) : PathText parsed.path := by
  unfold urlparse at h
  dsimp only at h
  split at h
  · cases h
  split at h
  · cases h
  cases h
  intro c hc
  dsimp only at hc
  have hpath : c ∈ (List.takeWhile (· ≠ '?') (List.takeWhile (· ≠ '#') (splitNetloc (splitScheme
      ((text.toList.dropWhile isC0ControlOrSpace).filter fun c =>
        c ≠ '\t' && c ≠ '\r' && c ≠ '\n')).2).2)) := by
    split at hc
    · exact mem_dropParams hc
    · exact hc
  have hquery := List.mem_takeWhile_imp hpath
  have hmem := (List.takeWhile_sublist _).mem hpath
  have hfragment := List.mem_takeWhile_imp hmem
  have hkept := (List.mem_filter.mp
    (splitScheme_mem (splitNetloc_mem ((List.takeWhile_sublist _).mem hmem)))).2
  simp only [ne_eq, decide_not, Bool.not_eq_true', decide_eq_false_iff_not, Bool.and_eq_true]
    at hquery hfragment hkept
  simp [hquery, hfragment, hkept]

def repoSegment (tables : UrlTables) (url : String) : List Char :=
  match urlparse tables (strip url) with
  | .error _ => []
  | .ok parsed => (pathParts parsed.path).getD 1 []

/-- A normalized address is read as the names it was made of, and normalizes to itself,
exactly where its name is stable. -/
theorem normalizes_stable_iff (hd : settings.tables.Documented)
    (hhost : "github.com" ∈ settings.allowedHosts) {normalized : NormalizedRepo}
    (h : normalizeUrl settings url = .ok normalized) :
    (parseGithubUrl settings normalized.repoUrl =
          .ok (normalized.owner.toList, normalized.repo.toList) ∧
        ∃ again, normalizeUrl settings normalized.repoUrl = .ok again ∧
          again.repoUrl = normalized.repoUrl ∧ again.detectedRef = none) ↔
      StableName (removeGitSuffix (repoSegment settings.tables url)) := by
  obtain ⟨parsed, owner, second, rest, hparsed, -, hparts, ⟨pair, hpair⟩, rfl⟩ :=
    normalizeUrl_ok h
  have hsegment : repoSegment settings.tables url = second := by
    unfold repoSegment
    rw [hparsed]
    dsimp only
    rw [hparts]
    rfl
  rw [hsegment]
  dsimp only
  rw [String.toList_ofList, String.toList_ofList]
  have hpart : ∀ part ∈ pathParts parsed.path, part ≠ [] ∧ '/' ∉ part ∧ PathText part := by
    intro part hmem
    obtain ⟨hne, hslash, hchars⟩ := mem_pathParts hmem
    exact ⟨hne, hslash, fun c hc => urlparse_pathText hparsed c (hchars c hc)⟩
  obtain ⟨howner, hownerSlash, hownerText⟩ := hpart owner (by rw [hparts]; simp)
  obtain ⟨-, hsecondSlash, hsecondText⟩ := hpart second (by rw [hparts]; simp)
  have hinit := removeGitSuffix_isPrefix second
  have hslash : '/' ∉ removeGitSuffix second := fun hmem => hsecondSlash (hinit.subset hmem)
  have htext : PathText (removeGitSuffix second) :=
    fun c hc => hsecondText c (hinit.subset hc)
  generalize removeGitSuffix second = repo at hpair hslash htext ⊢
  have hclean := cleanUrl_shape howner hownerSlash repo
  have htrim := List.rdropWhile_prefix isSpace repo
  obtain ⟨parsed', hparsed', hscheme', hparts'⟩ := hclean.pathParts settings
    (by decide) (hd.netloc _ github_ascii) hownerText (fun c hc => htext c (htrim.subset hc))
    fun hmem => hslash (htrim.subset hmem)
  rw [parse_clean hd hhost howner hownerSlash] at hpair ⊢
  constructor
  · rintro ⟨hgroup, again, hagain, hurl, -⟩
    cases hfound : repoGroup repo with
    | none =>
      rw [hfound] at hgroup
      cases hgroup
    | some found =>
      rw [hfound] at hgroup
      cases hgroup
      obtain ⟨rest', hshort⟩ := repoGroup_some hfound
      have hrest : rest' = [] := by
        have hshape := hshort.shape
        simpa using hshape
      obtain ⟨parsed'', owner', second', rest'', hparsed'', -, hparts'', -, rfl⟩ :=
        normalizeUrl_ok hagain
      rw [hparsed'] at hparsed''
      obtain rfl := Except.ok.inj hparsed''
      rw [hparts'] at hparts''
      apply stableName_of_segment hshort.ne
      · intro p q hsplit hp hq hfold
        exact hshort.least p q hsplit hp hq
          ⟨q, [], by rw [hrest], Or.inr hfold, Or.inl rfl⟩
      · by_cases hempty : lastSegment repo = []
        · rw [if_pos hempty] at hparts''
          cases hparts''
        · rw [if_neg hempty] at hparts''
          cases hparts''
          exact (List.cons.inj (List.append_cancel_left (String.ofList_injective hurl))).2
  · intro hstable
    have hgroup := hstable.repoGroup hslash htext.no_newline (Or.inl rfl)
    have hlast := hstable.lastSegment (Or.inl rfl)
    rw [List.append_nil] at hgroup hlast
    rw [hlast, if_neg hstable.ne] at hparts'
    refine ⟨by rw [hgroup], ?_⟩
    have haccepted : parseGithubUrl settings (cleanUrl owner (removeGitSuffix repo)) =
        .ok (owner, repo) := by
      rw [parse_clean hd hhost howner hownerSlash, hstable.removeGitSuffix, hgroup]
    refine ⟨_, normalizeUrl_eq hparsed' hscheme' hparts' haccepted, ?_, rfl⟩
    rw [hstable.removeGitSuffix]

end

/-- For a URL that the pattern accepts the other parser finds the same repository
exactly if its owner and name stand in the path as they are; and what the other
parser normalises is read back by both exactly if the name is stable. -/
theorem repo_urls_agree_iff (settings : GitSettings) (hd : settings.tables.Documented)
    (hhost : "github.com" ∈ settings.allowedHosts) (url : String) :
    (∀ owner repo, parseGithubUrl settings url = .ok (owner, repo) →
      ((∃ normalized, normalizeUrl settings url = .ok normalized ∧
          normalized.owner = String.ofList owner ∧ normalized.repo = String.ofList repo) ↔
        PlainUrl url.toList)) ∧
    ∀ normalized, normalizeUrl settings url = .ok normalized →
      ((parseGithubUrl settings normalized.repoUrl =
            .ok (normalized.owner.toList, normalized.repo.toList) ∧
          ∃ again, normalizeUrl settings normalized.repoUrl = .ok again ∧
            again.repoUrl = normalized.repoUrl ∧ again.detectedRef = none) ↔
        StableName (removeGitSuffix (repoSegment settings.tables url))) := by
  constructor
  · intro owner repo hparse
    constructor
    · rintro ⟨normalized, hnormalized, howner, hrepo⟩
      exact plainUrl_of_normalizes hparse hnormalized howner hrepo
    · intro hplain
      exact hplain.normalizes hd hhost hparse
  · intro normalized hnormalized
    exact normalizes_stable_iff hd hhost hnormalized

def githubOnly : GitSettings where
  tables := ⟨asciiLower, fun _ => true, id⟩
  allowedHosts := ["github.com"]

theorem repo_urls_agree_git :
    PlainUrl "https://github.com/o/r.git".toList ∧
      StableName (removeGitSuffix (repoSegment githubOnly.tables "https://github.com/o/r.git")) := by
  have hread : normalizeUrl githubOnly "https://github.com/o/r.git" =
      .ok ⟨"https://github.com/o/r", "o", "r", none⟩ := rfl
  obtain ⟨hparses, hnormalizes⟩ := repo_urls_agree_iff githubOnly
    ⟨lowersAscii_asciiLower, fun _ _ => rfl⟩ (by decide) "https://github.com/o/r.git"
  constructor
  · exact (hparses "o".toList "r".toList rfl).mp ⟨_, hread, rfl, rfl⟩
  · exact (hnormalizes _ hread).mp ⟨rfl, ⟨"https://github.com/o/r", "o", "r", none⟩, rfl, rfl, rfl⟩

/-- A query is part of the name for one parser only, and a name that still ends in
`.git` is not read back. -/
theorem query_in_name :
    parseGithubUrl githubOnly "https://github.com/o/r?tab=readme" =
        .ok ("o".toList, "r?tab=readme".toList) ∧
      normalizeUrl githubOnly "https://github.com/o/r?tab=readme" =
        .ok ⟨"https://github.com/o/r", "o", "r", none⟩ ∧
      normalizeUrl githubOnly "https://github.com/o/r.git.git" =
        .ok ⟨"https://github.com/o/r.git", "o", "r.git", none⟩ ∧
      parseGithubUrl githubOnly "https://github.com/o/r.git" = .ok ("o".toList, "r".toList) :=
  ⟨rfl, rfl, rfl, rfl⟩

end PluginRegistry
