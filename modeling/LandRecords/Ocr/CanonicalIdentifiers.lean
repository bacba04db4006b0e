import LandRecords.Ocr.Normalization

/-! What the patterns of the numbered fields find: the identifier after the first label that one
follows. It is a real identifier exactly where a digit is in the first run of its characters. -/
namespace LandRecords.Ocr

open Pattern

/-! ## Characters -/

theorem foldCase_of_space {c : Char} (h : isSpace c = true) : foldCase c = c := by
  simp only [isSpace, Bool.or_eq_true, Bool.and_eq_true, decide_eq_true_eq, beq_iff_eq] at h
  unfold foldCase
  dsimp only
  rw [if_neg (by simp; omega), if_neg (by simp; omega), if_neg (by simp; omega),
    if_neg (by simp; omega)]

theorem not_isAsciiIdentifier_of_space {c : Char} (h : isSpace c = true) :
    isAsciiIdentifier c = false := by
  have hslash : c ≠ '/' := by
    rintro rfl
    exact absurd h (by decide)
  have hhyphen : c ≠ '-' := by
    rintro rfl
    exact absurd h (by decide)
  simp only [isSpace, Bool.or_eq_true, Bool.and_eq_true, decide_eq_true_eq, beq_iff_eq] at h
  simp only [isAsciiIdentifier, isDigit, Bool.or_eq_false_iff, Bool.and_eq_false_iff,
    decide_eq_false_iff_not, beq_eq_false_iff_ne]
  refine ⟨⟨⟨⟨?_, ?_⟩, ?_⟩, hslash⟩, hhyphen⟩ <;> omega

theorem not_isIdentifier_of_space {c : Char} (h : isSpace c = true) : isIdentifier c = false := by
  rw [isIdentifier, foldCase_of_space h, not_isAsciiIdentifier_of_space h]

theorem isIdentifier_of_ascii {c : Char} (h : isAsciiIdentifier c = true) :
    isIdentifier c = true := by
  unfold isIdentifier foldCase
  dsimp only
  split
  · rename_i hupper
    simp only [Bool.and_eq_true, decide_eq_true_eq] at hupper
    have hvalid : (c.toNat + 32).isValidChar := .inl (by omega)
    have hlower : (Char.ofNat (c.toNat + 32)).toNat = c.toNat + 32 := by
      rw [Char.ofNat, dif_pos hvalid]
      rfl
    have hletter : 97 ≤ c.toNat + 32 ∧ c.toNat + 32 ≤ 122 := by omega
    simp [isAsciiIdentifier, hlower, hletter]
  · split
    · rfl
    · split
      · rfl
      · split
        · rfl
        · exact h

/-! ## What a pattern reads -/

def identifierStart (text : Text) : Option Text :=
  if text.head?.any isIdentifier then some text else none

def numberStart (words : List String) (text : Text) : Option Text :=
  (words.findSome? fun w => (dropWord sameIgnoringCase w.toList text).bind fun rest =>
    identifierStart (rest.dropWhile isSpace)).or (identifierStart (text.dropWhile isSpace))

def labelStart (labels words : List String) (text : Text) : Option Text :=
  labels.findSome? fun label => (dropWord sameIgnoringCase label.toList text).bind fun rest =>
    numberStart words (rest.dropWhile isSpace)

def readFrom (labels words : List String) (text : Text) : Option Text :=
  text.tails.findSome? (labelStart labels words)

theorem run_identifier (text : Text) (k : Text → List Text → Option (List Text))
    (hk : ∀ rest groups, k rest groups = some groups) :
    (group (some1 isIdentifier)).run text k =
      (identifierStart text).map fun rest => [rest.takeWhile isIdentifier] := by
  cases text with
  | nil => rfl
  | cons c text =>
    rw [run, some1, run_seq, run, identifierStart]
    by_cases hc : isIdentifier c = true
    · have htaken : (c :: text).take ((c :: text).length - (text.dropWhile isIdentifier).length) =
          (c :: text).takeWhile isIdentifier := by
        have hsplit := List.takeWhile_append_dropWhile (p := isIdentifier) (l := c :: text)
        rw [List.dropWhile_cons_of_pos hc] at hsplit
        have hlength := congrArg List.length hsplit
        rw [List.length_append] at hlength
        have hcount : (c :: text).length - (text.dropWhile isIdentifier).length =
            ((c :: text).takeWhile isIdentifier).length := by omega
        have htake := @List.take_left _ ((c :: text).takeWhile isIdentifier)
          (text.dropWhile isIdentifier)
        rwa [hsplit, ← hcount] at htake
      rw [if_pos hc, run_many (fun _ _ _ h => by simp [hk] at h), hk, htaken]
      simp [hc]
    · rw [if_neg hc]
      simp [hc]

def Tries (numberWord : Pattern) (words : List String) : Prop :=
  (∀ w ∈ words, ∃ c letters, w.toList = c :: letters ∧ isSpace c = false) ∧
    ∀ (text : Text) (k : Text → List Text → Option (List Text)), numberWord.run text k =
      words.findSome? fun w =>
        (dropWord sameIgnoringCase w.toList text).bind fun rest => k rest []

theorem run_literal (letters : String) (text : Text) (k : Text → List Text → Option (List Text)) :
    (literal letters).run text k =
      (dropWord sameIgnoringCase letters.toList text).bind fun rest => k rest [] :=
  run_word sameIgnoringCase letters.toList

theorem dropWord_space {c : Char} (hc : isSpace c = true) {w : Text} {d : Char} {letters : Text}
    (hw : w = d :: letters) (hd : isSpace d = false) (text : Text) :
    dropWord sameIgnoringCase w (c :: text) = none := by
  rw [hw, dropWord, if_neg]
  rw [sameIgnoringCase, foldCase_of_space hc, beq_iff_eq]
  rintro rfl
  rw [hc] at hd
  cases hd

theorem run_spaces (text : Text) (k : Text → List Text → Option (List Text))
    (hk : ∀ rest groups, k rest groups = some groups) :
    (seq spaces (group (some1 isIdentifier))).run text k =
      (identifierStart (text.dropWhile isSpace)).map fun rest =>
        [rest.takeWhile isIdentifier] := by
  have hidentifier : ∀ rest, (group (some1 isIdentifier)).run rest
      (fun rest' groups' => k rest' ([] ++ groups')) =
        (identifierStart rest).map fun rest => [rest.takeWhile isIdentifier] :=
    fun rest => run_identifier rest _ fun rest groups => hk rest groups
  rw [run_seq, spaces, run_many, hidentifier]
  intro c rest hc _
  rw [hidentifier, identifierStart]
  simp [not_isIdentifier_of_space hc]

theorem run_number {numberWord : Pattern} {words : List String} (htries : Tries numberWord words)
    (text : Text) (k : Text → List Text → Option (List Text))
    (hk : ∀ rest groups, k rest groups = some groups) :
    (seq (opt numberWord) (seq spaces (group (some1 isIdentifier)))).run text k =
      (numberStart words text).map fun rest => [rest.takeWhile isIdentifier] := by
  have hrest : ∀ rest, (seq spaces (group (some1 isIdentifier))).run rest
      (fun rest' groups' => k rest' ([] ++ groups')) =
        (identifierStart (rest.dropWhile isSpace)).map fun rest => [rest.takeWhile isIdentifier] :=
    fun rest => run_spaces rest _ fun rest groups => hk rest groups
  rw [run_seq, run_opt, htries.2, hrest, numberStart]
  simp only [hrest]
  rw [Option.map_or, List.map_findSome?]
  congr 2
  funext w
  rw [Function.comp_apply, Option.map_bind]
  rfl

theorem run_labelledNumber {labels : List String} {numberWord : Pattern} {words : List String}
    (htries : Tries numberWord words) (text : Text) :
    ((labelledNumber labels numberWord).run text fun _ groups => some groups) =
      (labelStart labels words text).map fun rest => [rest.takeWhile isIdentifier] := by
  have hnumber : ∀ rest, (seq (opt numberWord) (seq spaces (group (some1 isIdentifier)))).run rest
      (fun _ groups => some groups) =
        (numberStart words rest).map fun rest => [rest.takeWhile isIdentifier] :=
    fun rest => run_number htries rest _ fun _ _ => rfl
  have hspaces : ∀ rest, (seq spaces (seq (opt numberWord) (seq spaces
      (group (some1 isIdentifier))))).run rest (fun _ groups => some groups) =
        (numberStart words (rest.dropWhile isSpace)).map fun rest =>
          [rest.takeWhile isIdentifier] := by
    intro rest
    rw [run_seq, spaces, run_many]
    · exact hnumber _
    · -- with less whitespace dropped there is no number word, and the same identifier
      intro c later hc hnone
      have hnone : (numberStart words (later.dropWhile isSpace)).map
          (fun rest => [rest.takeWhile isIdentifier]) = none := (hnumber _).symm.trans hnone
      have hwords : (words.findSome? fun w => (dropWord sameIgnoringCase w.toList (c :: later)).bind
          fun rest => identifierStart (rest.dropWhile isSpace)) = none := by
        rw [List.findSome?_eq_none_iff]
        intro w hw
        obtain ⟨d, letters, hletters, hd⟩ := htries.1 w hw
        rw [dropWord_space hc hletters hd, Option.bind_none]
      rw [Option.map_eq_none_iff, numberStart, Option.or_eq_none_iff, List.dropWhile_idempotent]
        at hnone
      have hfail : numberStart words (c :: later) = none := by
        rw [numberStart, hwords, Option.none_or, List.dropWhile_cons_of_pos hc]
        exact hnone.2
      exact (hnumber _).trans (by rw [hfail, Option.map_none])
  rw [labelledNumber, run_seq, run_oneOf, List.findSome?_map, labelStart, List.map_findSome?]
  congr 1
  funext label
  rw [Function.comp_apply, run_literal, Function.comp_apply, Option.map_bind]
  congr 1
  funext rest
  exact hspaces rest

/-! ## The numbered fields -/

structure NumberedField where
  name : Text
  labels : List String
  words : List String

def surveyNumber : NumberedField where
  name := "survey_number".toList
  labels := ["khasra", "survey", "plot", "gata"]
  words := ["no.", "no", "num", "#"]

def khataNumber : NumberedField where
  name := "khata_number".toList
  labels := ["khatauni", "khata", "account"]
  words := ["no.", "no", "num", "#"]

def mutationReference : NumberedField where
  name := "mutation_reference".toList
  labels := ["mutation", "intakal", "order"]
  words := ["no.", "no", "ref", "#"]

def numberedFields : List NumberedField := [surveyNumber, khataNumber, mutationReference]

def NumberedField.read (field : NumberedField) (text : Text) : Option Text :=
  readFrom field.labels field.words text

theorem dropWord_append (same : Char → Char → Bool) (first second text : Text) :
    dropWord same (first ++ second) text = (dropWord same first text).bind (dropWord same second) := by
  induction first generalizing text with
  | nil => rfl
  | cons c first ih =>
    cases text with
    | nil => rfl
    | cons d text =>
      rw [List.cons_append, dropWord, dropWord]
      by_cases hsame : same c d = true
      · rw [if_pos hsame, if_pos hsame, ih]
      · rw [if_neg hsame, if_neg hsame]
        rfl

theorem run_noWord (text : Text) (k : Text → List Text → Option (List Text)) :
    noWord.run text k = ["no.", "no"].findSome? fun w =>
      (dropWord sameIgnoringCase w.toList text).bind fun rest => k rest [] := by
  have hsplit : "no.".toList = "no".toList ++ ".".toList := by decide
  rw [noWord, run_seq, run_literal, List.findSome?_cons, List.findSome?_cons, List.findSome?_nil,
    hsplit, dropWord_append]
  cases dropWord sameIgnoringCase "no".toList text with
  | none => rfl
  | some rest =>
    rw [Option.bind_some, Option.bind_some, Option.bind_some, run_opt, run_literal,
      List.append_nil]
    cases (dropWord sameIgnoringCase ".".toList rest).bind fun rest => k rest [] <;>
      cases k rest [] <;> rfl

theorem tries_noWord (w : String) (hw : ∃ c letters, w.toList = c :: letters ∧ isSpace c = false) :
    Tries (oneOf [noWord, literal w, literal "#"]) ["no.", "no", w, "#"] := by
  constructor
  · intro v hv
    simp only [List.mem_cons, List.not_mem_nil, or_false] at hv
    rcases hv with rfl | rfl | rfl | rfl
    · exact ⟨'n', "o.".toList, by decide, by decide⟩
    · exact ⟨'n', "o".toList, by decide, by decide⟩
    · exact hw
    · exact ⟨'#', [], by decide, by decide⟩
  · intro text k
    rw [run_oneOf, List.findSome?_cons, run_noWord]
    simp only [List.findSome?_cons, List.findSome?_nil, run_literal]
    cases (dropWord sameIgnoringCase "no.".toList text).bind fun rest => k rest [] <;>
      cases (dropWord sameIgnoringCase "no".toList text).bind fun rest => k rest [] <;> rfl

theorem firstGroup_labelledNumber {labels : List String} {numberWord : Pattern}
    {words : List String} (htries : Tries numberWord words) (text : Text) :
    firstGroup (labelledNumber labels numberWord) text =
      (readFrom labels words text).map (List.takeWhile isIdentifier) := by
  have hsearch : search (labelledNumber labels numberWord) text =
      (readFrom labels words text).map fun rest => [rest.takeWhile isIdentifier] := by
    rw [search, readFrom, List.map_findSome?]
    congr 1
    funext rest
    exact run_labelledNumber htries rest
  rw [firstGroup, hsearch]
  cases readFrom labels words text <;> rfl

theorem fieldValue_eq (tables : CharacterTables) {field : NumberedField}
    (hfield : field ∈ numberedFields) (cleaned : Text) :
    fieldValue tables field.name cleaned = (field.read cleaned).map (List.takeWhile isIdentifier) := by
  have hnum := tries_noWord "num" ⟨'n', "um".toList, by decide, by decide⟩
  have href := tries_noWord "ref" ⟨'r', "ef".toList, by decide, by decide⟩
  simp only [numberedFields, List.mem_cons, List.not_mem_nil, or_false] at hfield
  rcases hfield with rfl | rfl | rfl
  · exact firstGroup_labelledNumber hnum cleaned
  · exact firstGroup_labelledNumber hnum cleaned
  · exact firstGroup_labelledNumber href cleaned

/-! ## Where the identifier stands -/

theorem identifierStart_eq_some {text rest : Text} (h : identifierStart text = some rest) :
    rest = text ∧ rest.head?.any isIdentifier = true := by
  rw [identifierStart] at h
  split at h
  · cases h
    exact ⟨rfl, ‹_›⟩
  · cases h

theorem dropWord_suffix {same : Char → Char → Bool} {w text rest : Text}
    (h : dropWord same w text = some rest) : rest <:+ text := by
  induction w generalizing text with
  | nil =>
    cases h
    exact List.suffix_rfl
  | cons c w ih =>
    cases text with
    | nil => cases h
    | cons d text =>
      rw [dropWord] at h
      split at h
      · exact (ih h).trans (List.suffix_cons d text)
      · cases h

theorem dropWord_label {w : Text} {d : Char} {letters text rest : Text} (hw : w = d :: letters)
    (hd : isSpace d = false) (h : dropWord sameIgnoringCase w text = some rest) :
    ∃ c more, text = c :: more ∧ isSpace c = false ∧ rest <:+ more := by
  cases text with
  | nil =>
    rw [hw] at h
    cases h
  | cons c more =>
    have hc : isSpace c = false := by
      by_contra hspace
      rw [dropWord_space (by simpa using hspace) hw hd] at h
      cases h
    rw [hw, dropWord] at h
    split at h
    · exact ⟨c, more, rfl, hc, dropWord_suffix h⟩
    · cases h

theorem numberStart_eq_some {words : List String} {text rest : Text}
    (h : numberStart words text = some rest) :
    rest <:+ text ∧ rest.head?.any isIdentifier = true := by
  rw [numberStart, Option.or_eq_some_iff] at h
  cases h with
  | inl h =>
    obtain ⟨w, -, h⟩ := List.exists_of_findSome?_eq_some h
    obtain ⟨after, hafter, h⟩ := Option.bind_eq_some_iff.mp h
    obtain ⟨rfl, hhead⟩ := identifierStart_eq_some h
    exact ⟨(List.dropWhile_suffix isSpace).trans (dropWord_suffix hafter), hhead⟩
  | inr h =>
    obtain ⟨rfl, hhead⟩ := identifierStart_eq_some h.2
    exact ⟨List.dropWhile_suffix isSpace, hhead⟩

theorem NumberedField.label_start {field : NumberedField} (hfield : field ∈ numberedFields) :
    ∀ label ∈ field.labels, ∃ d letters, label.toList = d :: letters ∧ isSpace d = false := by
  have hlabels : ∀ field ∈ numberedFields, ∀ label ∈ field.labels,
      label.toList.head?.any (fun d => !isSpace d) = true := by
    decide
  intro label hlabel
  have hhead := hlabels field hfield label hlabel
  cases hletters : label.toList with
  | nil =>
    rw [hletters] at hhead
    cases hhead
  | cons d letters =>
    rw [hletters] at hhead
    exact ⟨d, letters, rfl, by simpa using hhead⟩

/-- The identifier stands behind a label. -/
theorem NumberedField.read_eq_some {field : NumberedField} (hfield : field ∈ numberedFields)
    {text rest : Text} (h : field.read text = some rest) :
    ∃ before, text = before ++ rest ∧ (∃ c ∈ before, isSpace c = false) ∧
      rest.head?.any isIdentifier = true := by
  obtain ⟨suffix, hsuffix, h⟩ := List.exists_of_findSome?_eq_some h
  obtain ⟨label, hlabel, h⟩ := List.exists_of_findSome?_eq_some h
  obtain ⟨after, hafter, h⟩ := Option.bind_eq_some_iff.mp h
  obtain ⟨hrest, hhead⟩ := numberStart_eq_some h
  obtain ⟨d, letters, hletters, hd⟩ := label_start hfield label hlabel
  obtain ⟨c, more, rfl, hc, hmore⟩ := dropWord_label hletters hd hafter
  obtain ⟨before, rfl⟩ := (List.mem_tails ..).mp hsuffix
  obtain ⟨between, rfl⟩ := (hrest.trans (List.dropWhile_suffix isSpace)).trans hmore
  exact ⟨before ++ c :: between, by simp, ⟨c, by simp, hc⟩, hhead⟩

/-! ## The characters that are no whitespace -/

def printed (text : Text) : Text := text.filter fun c => !isSpace c

theorem mem_printed {c : Char} {text : Text} :
    c ∈ printed text ↔ c ∈ text ∧ isSpace c = false := by
  simp [printed]

theorem printed_append (first second : Text) :
    printed (first ++ second) = printed first ++ printed second := by
  simp [printed]

theorem printed_collapseSpaces (text : Text) : printed (collapseSpaces text) = printed text := by
  induction text with
  | nil => rfl
  | cons c text ih =>
    simp only [printed] at ih
    have hblank : isSpace ' ' = true := by decide
    unfold collapseSpaces
    by_cases hc : isSpace c = true
    · by_cases hnext : text.head?.any isSpace = true <;> simp [printed, hc, hnext, ih, hblank]
    · simp [printed, hc, ih]

theorem strip_spec (raw : Text) : ∃ before after, raw = before ++ strip raw ++ after ∧
    (∀ c ∈ before, isSpace c = true) ∧ ∀ c ∈ after, isSpace c = true := by
  refine ⟨raw.takeWhile isSpace, (raw.dropWhile isSpace).rtakeWhile isSpace, ?_,
    fun _ => List.mem_takeWhile_imp, fun _ => List.mem_rtakeWhile_imp⟩
  have hright (text : Text) : text.rdropWhile isSpace ++ text.rtakeWhile isSpace = text := by
    rw [List.rdropWhile, List.rtakeWhile, ← List.reverse_append, List.takeWhile_append_dropWhile,
      List.reverse_reverse]
  rw [strip, List.append_assoc, hright, List.takeWhile_append_dropWhile]

theorem printed_strip (raw : Text) : printed (strip raw) = printed raw := by
  obtain ⟨before, after, hraw, hbefore, hafter⟩ := strip_spec raw
  have hnone {text : Text} (h : ∀ c ∈ text, isSpace c = true) : printed text = [] := by
    simpa [printed] using h
  conv_rhs => rw [hraw, printed_append, printed_append, hnone hbefore, hnone hafter]
  simp

theorem isSpace_of_isDigit {c : Char} (h : isDigit c = true) : isSpace c = false := by
  cases hspace : isSpace c with
  | false => rfl
  | true =>
    have hnot := not_isAsciiIdentifier_of_space hspace
    rw [isAsciiIdentifier, h] at hnot
    cases hnot

/-! ## Real identifiers -/

structure IdentifierRun (raw value : Text) : Prop where
  nonempty : value ≠ []
  characters : ∀ c ∈ value, isAsciiIdentifier c = true
  place : ∃ before after, raw = before ++ value ++ after ∧
    after.head?.any isAsciiIdentifier = false

/-- A digit stands somewhere behind a label. -/
def LabelBeforeDigit (labels : List String) (raw : Text) : Prop :=
  ∃ text ∈ raw.tails, ∃ label ∈ labels,
    ∃ rest ∈ dropWord sameIgnoringCase label.toList text, ∃ c ∈ rest, isDigit c = true

/-- The cleaned reading or a run of it, with a digit where one stands behind a label. -/
structure RealIdentifier (labels : List String) (raw value : Text) : Prop where
  taken : value = collapseSpaces (strip raw) ∨ IdentifierRun raw value
  digit : LabelBeforeDigit labels raw → ∃ c ∈ value, isDigit c = true

/-- The next digit stands behind letters, slashes and hyphens only. -/
def DigitAhead (rest : Text) : Prop :=
  ∃ letters digit later, rest = letters ++ digit :: later ∧
    (∀ c ∈ letters, isIdentifier c = true) ∧ isDigit digit = true

/-- The characters up to the first that is no part of an identifier are all ASCII. -/
def AsciiAhead (rest : Text) : Prop :=
  (rest.dropWhile isAsciiIdentifier).head?.any isIdentifier = false

instance (rest : Text) : Decidable (AsciiAhead rest) :=
  inferInstanceAs (Decidable (Option.any _ _ = false))

theorem isIdentifier_of_isDigit {c : Char} (h : isDigit c = true) : isIdentifier c = true :=
  isIdentifier_of_ascii (by rw [isAsciiIdentifier, h]; rfl)

theorem digitAhead_iff (rest : Text) :
    DigitAhead rest ↔ ∃ c ∈ rest.takeWhile isIdentifier, isDigit c = true := by
  constructor
  · rintro ⟨letters, digit, later, rfl, hletters, hdigit⟩
    rw [List.takeWhile_append_of_pos hletters,
      List.takeWhile_cons_of_pos (isIdentifier_of_isDigit hdigit)]
    exact ⟨digit, by simp, hdigit⟩
  · rintro ⟨digit, hmem, hdigit⟩
    obtain ⟨letters, later, hsplit⟩ := List.append_of_mem hmem
    refine ⟨letters, digit, later ++ rest.dropWhile isIdentifier, ?_, ?_, hdigit⟩
    · conv_lhs => rw [← List.takeWhile_append_dropWhile (p := isIdentifier) (l := rest), hsplit]
      simp
    · intro c hc
      apply List.mem_takeWhile_imp (l := rest)
      rw [hsplit]
      exact List.mem_append_left _ hc

theorem asciiAhead_iff (rest : Text) :
    AsciiAhead rest ↔ ∀ c ∈ rest.takeWhile isIdentifier, isAsciiIdentifier c = true := by
  unfold AsciiAhead
  induction rest with
  | nil => simp
  | cons c rest ih =>
    by_cases hascii : isAsciiIdentifier c = true
    · rw [List.dropWhile_cons_of_pos hascii,
        List.takeWhile_cons_of_pos (isIdentifier_of_ascii hascii), ih]
      simp [hascii]
    · by_cases hc : isIdentifier c = true <;> simp [hascii, hc]

theorem run_ne_cleaned {before rest : Text} (hbefore : ∃ c ∈ before, isSpace c = false) :
    rest.takeWhile isIdentifier ≠ collapseSpaces (before ++ rest) := by
  intro heq
  have hprinted := congrArg List.length (congrArg printed heq)
  rw [printed_collapseSpaces, printed_append, List.length_append] at hprinted
  have hrun : (printed (rest.takeWhile isIdentifier)).length ≤ (printed rest).length :=
    ((List.takeWhile_sublist _).filter _).length_le
  obtain ⟨c, hc, hspace⟩ := hbefore
  have hlabel : 0 < (printed before).length :=
    List.length_pos_of_mem (mem_printed.mpr ⟨hc, hspace⟩)
  omega

theorem identifierRun_takeWhile {raw before rest : Text} (hraw : strip raw = before ++ rest)
    (hhead : rest.head?.any isIdentifier = true)
    (hascii : ∀ c ∈ rest.takeWhile isIdentifier, isAsciiIdentifier c = true) :
    IdentifierRun raw (rest.takeWhile isIdentifier) := by
  obtain ⟨left, right, hstrip, -, hright⟩ := strip_spec raw
  refine ⟨?_, hascii, left ++ before, rest.dropWhile isIdentifier ++ right, ?_, ?_⟩
  · cases rest with
    | nil => cases hhead
    | cons c rest => simpa using hhead
  · rw [List.append_assoc, List.append_assoc, ← List.append_assoc (List.takeWhile ..),
      List.takeWhile_append_dropWhile, ← List.append_assoc, ← List.append_assoc,
      List.append_assoc left, ← hraw]
    exact hstrip
  · have hstop := List.head?_dropWhile_not isIdentifier rest
    cases hafter : rest.dropWhile isIdentifier with
    | nil =>
      cases right with
      | nil => rfl
      | cons c right => simpa using not_isAsciiIdentifier_of_space (hright c List.mem_cons_self)
    | cons c after =>
      rw [hafter] at hstop
      simp only [List.head?_cons] at hstop
      simp only [List.cons_append, List.head?_cons, Option.any_some]
      by_contra hc
      rw [isIdentifier_of_ascii (by simpa using hc)] at hstop
      cases hstop

theorem digit_of_labelBeforeDigit {labels : List String} {raw : Text}
    (h : LabelBeforeDigit labels raw) : ∃ c ∈ collapseSpaces (strip raw), isDigit c = true := by
  obtain ⟨text, htext, label, -, rest, hrest, c, hc, hdigit⟩ := h
  have hraw : c ∈ raw :=
    ((dropWord_suffix hrest).trans ((List.mem_tails ..).mp htext)).subset hc
  have hprinted : c ∈ printed (collapseSpaces (strip raw)) := by
    rw [printed_collapseSpaces, printed_strip]
    exact mem_printed.mpr ⟨hraw, isSpace_of_isDigit hdigit⟩
  exact ⟨c, (mem_printed.mp hprinted).1, hdigit⟩

theorem realIdentifier_run_iff {labels : List String} {raw before rest : Text}
    (hraw : strip raw = before ++ rest) (hbefore : ∃ c ∈ before, isSpace c = false)
    (hhead : rest.head?.any isIdentifier = true) :
    RealIdentifier labels raw (rest.takeWhile isIdentifier) ↔
      AsciiAhead rest ∧ (LabelBeforeDigit labels raw → DigitAhead rest) := by
  rw [asciiAhead_iff, digitAhead_iff]
  constructor
  · intro h
    refine ⟨?_, h.digit⟩
    cases h.taken with
    | inl hcleaned =>
      rw [hraw] at hcleaned
      exact absurd hcleaned (run_ne_cleaned hbefore)
    | inr hrun => exact hrun.characters
  · intro h
    exact ⟨.inr (identifierRun_takeWhile hraw hhead h.1), h.2⟩

/-- The identifiers are real exactly where the text that is read as one is ASCII and, if a digit
stands behind a label, comes to a digit before it comes to the end of a word. -/
theorem canonicalIdentifier_real_iff (tables : CharacterTables) {field : NumberedField}
    (hfield : field ∈ numberedFields) (raw : Text) :
    (∀ value, normalizeFieldCanonical tables field.name raw = some value →
      RealIdentifier field.labels raw value) ↔
    ∀ rest, field.read (strip raw) = some rest →
      AsciiAhead rest ∧ (LabelBeforeDigit field.labels raw → DigitAhead rest) := by
  by_cases hempty : raw = []
  · subst hempty
    constructor
    · intro _ rest hread
      obtain ⟨before, hraw, ⟨c, hc, -⟩, -⟩ := field.read_eq_some hfield hread
      have hnil : before = [] := (List.append_eq_nil_iff.mp hraw.symm).1
      rw [hnil] at hc
      cases hc
    · intro _ value hvalue
      cases hvalue
  · have hvalue : normalizeFieldCanonical tables field.name raw =
        some (((field.read (strip raw)).map (List.takeWhile isIdentifier)).getD
          (collapseSpaces (strip raw))) := by
      rw [normalizeFieldCanonical, if_neg hempty]
      dsimp only
      rw [fieldValue_eq tables hfield]
    rw [hvalue]
    cases hread : field.read (strip raw) with
    | none =>
      have hcleaned : RealIdentifier field.labels raw (collapseSpaces (strip raw)) :=
        ⟨.inl rfl, digit_of_labelBeforeDigit⟩
      simpa using hcleaned
    | some rest =>
      obtain ⟨before, hraw, hbefore, hhead⟩ := field.read_eq_some hfield hread
      simpa using realIdentifier_run_iff hraw hbefore hhead

def asciiTables : CharacterTables where
  isDecimal := isDigit
  lower := Text.lower

theorem canonicalIdentifier_real_khasra :
    normalizeFieldCanonical asciiTables surveyNumber.name "Khasra No 123/4".toList =
      some "123/4".toList ∧
    RealIdentifier surveyNumber.labels "Khasra No 123/4".toList "123/4".toList := by
  have hvalue : normalizeFieldCanonical asciiTables surveyNumber.name "Khasra No 123/4".toList =
      some "123/4".toList := by
    decide +kernel
  refine ⟨hvalue, (@canonicalIdentifier_real_iff asciiTables surveyNumber List.mem_cons_self _).mpr
    (fun rest hread => ?_) _ hvalue⟩
  have hrest : surveyNumber.read (strip "Khasra No 123/4".toList) = some "123/4".toList := by
    decide +kernel
  rw [hrest] at hread
  cases hread
  exact ⟨by decide, fun _ => ⟨[], '1', "23/4".toList, by decide, by simp, by decide⟩⟩

/-- The number word is taken for the survey number, and the number is left out. -/
theorem canonicalIdentifier_numberWord :
    ¬∀ value, normalizeFieldCanonical asciiTables surveyNumber.name "Survey No: 45".toList =
      some value → RealIdentifier surveyNumber.labels "Survey No: 45".toList value := by
  intro h
  have hvalue : normalizeFieldCanonical asciiTables surveyNumber.name "Survey No: 45".toList =
      some "No".toList := by
    decide +kernel
  have hlabel : LabelBeforeDigit surveyNumber.labels "Survey No: 45".toList :=
    ⟨"Survey No: 45".toList, by decide, "survey", by decide, " No: 45".toList, by decide, '4',
      by decide, by decide⟩
  obtain ⟨c, hc, hdigit⟩ := (h _ hvalue).digit hlabel
  have hnone : "No".toList.any isDigit = false := by decide
  have hsome : "No".toList.any isDigit = true := List.any_eq_true.mpr ⟨c, hc, hdigit⟩
  rw [hnone] at hsome
  cases hsome

end LandRecords.Ocr
