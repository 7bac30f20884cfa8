import FieldTrace.Proofs.TypeArguments
import FieldTrace.Seed
import Mathlib.Data.List.DropRight

/-! # Seed texts

A seed text is divided once, at its first `#` or else at its last dot (`Seed.Divides`), and what is
read of it are the two parts without the blanks around them (`Seed.parse_of_divides`). Identifiers
have neither blanks nor separators, so that the text of a field is divided before its name again. -/

namespace FieldTrace

namespace Text

/-! ### Characters of identifiers -/

/-- No code point lies in runs of both lists. -/
def runsApart (runs others : List CodeRun) : Bool :=
  runs.all (fun r => others.all (fun o => decide (r.2 < o.1) || decide (o.2 < r.1)))

theorem inRuns_eq_false {runs others : List CodeRun} (h : runsApart runs others = true) {c : Char}
    (hc : inRuns runs c = true) : inRuns others c = false := by
  obtain ⟨r, hr, hlow, hhigh⟩ := inRuns_iff.1 hc
  rw [Bool.eq_false_iff]
  intro hother
  obtain ⟨o, ho, holow, hohigh⟩ := inRuns_iff.1 hother
  have hapart := List.all_eq_true.1 (List.all_eq_true.1 h r hr) o ho
  rw [Bool.or_eq_true, decide_eq_true_eq, decide_eq_true_eq] at hapart
  omega

/-- The runs of `#`, of the dot, and of blanks. -/
def seedDelimiterRuns : List CodeRun := (35, 35) :: (46, 46) :: blankRuns

/-- The runs of ASCII digits, letters and the underscore. -/
def wordRuns : List CodeRun := [(48, 57), (65, 90), (95, 95), (97, 122)]

theorem inRuns_wordRuns {c : Char} (h : (c.isAlphanum || c == '_') = true) :
    inRuns wordRuns c = true := by
  have hval : c.val.toNat = c.toNat := rfl
  unfold Char.isAlphanum Char.isAlpha Char.isUpper Char.isLower Char.isDigit at h
  simp only [Bool.or_eq_true, Bool.and_eq_true, decide_eq_true_eq, beq_iff_eq, ge_iff_le,
    UInt32.le_iff_toNat_le, hval] at h
  simp only [inRuns, wordRuns, List.any_cons, List.any_nil, Bool.or_false, Bool.or_eq_true,
    Bool.and_eq_true, decide_eq_true_eq]
  obtain ((h | h) | h) | rfl := h
  · exact .inr (.inl h)
  · exact .inr (.inr (.inr h))
  · exact .inl h
  · exact .inr (.inr (.inl (by decide)))

theorem isIdentifierPart_of_isIdentifierStart {c : Char} (h : isIdentifierStart c = true) :
    isIdentifierPart c = true := by
  unfold isIdentifierStart at h
  unfold isIdentifierPart
  split
  next hascii =>
    rw [if_pos hascii] at h
    simp only [Char.isAlphanum, Bool.or_eq_true] at h ⊢
    exact h.imp_left .inl
  next hascii =>
    rw [if_neg hascii] at h
    rw [h, Bool.true_or]

/-- An identifier has neither blanks nor separators. -/
theorem isIdentifierPart_apart {c : Char} (h : isIdentifierPart c = true) :
    inRuns seedDelimiterRuns c = false := by
  unfold isIdentifierPart at h
  split at h
  · exact inRuns_eq_false (by decide +kernel) (inRuns_wordRuns h)
  · obtain h | h := Bool.or_eq_true_iff.1 h
    · exact inRuns_eq_false (by decide +kernel) h
    · exact inRuns_eq_false (by decide +kernel) h

/-- An identifier has characters, and none of them is a blank or a separator. -/
theorem isIdentifier_apart {f : String} (h : isIdentifier f = true) :
    f ≠ "" ∧ ∀ c ∈ f.toList, inRuns seedDelimiterRuns c = false := by
  unfold isIdentifier at h
  cases hf : f.toList with
  | nil =>
    rw [hf] at h
    cases h
  | cons d ds =>
    rw [hf, isIdentifierChars, Bool.and_eq_true] at h
    refine ⟨fun hempty => ?_, fun c hc => ?_⟩
    · rw [hempty] at hf
      cases hf
    obtain rfl | hc := List.mem_cons.1 hc
    · exact isIdentifierPart_apart (isIdentifierPart_of_isIdentifierStart h.1)
    · exact isIdentifierPart_apart (List.all_eq_true.1 h.2 c hc)

theorem notMem_of_isIdentifier {f : String} {c : Char} (hc : inRuns seedDelimiterRuns c = true)
    (h : isIdentifier f = true) : c ∉ f.toList :=
  fun hmem => Bool.eq_false_iff.1 ((isIdentifier_apart h).2 c hmem) hc

/-! ### Blanks around texts -/

theorem trim_surrounded (before after : Blanks) (s : String) :
    trim (before.text ++ s ++ after.text) = trim s := by
  unfold trim
  rw [String.toList_append, String.toList_append, trimChars_append_blanks after.isBlank]
  unfold trimChars
  rw [List.dropWhile_append_of_pos before.isBlank]

theorem exists_surrounded (s : String) :
    ∃ before after : Blanks, s = before.text ++ trim s ++ after.text := by
  let rest := s.toList.dropWhile isBlank
  have hblanks : ∀ cs : List Char, (∀ c ∈ cs, isBlank c = true) →
      (String.ofList cs).toList.all isBlank = true := by
    intro cs hcs
    rw [String.toList_ofList]
    exact List.all_eq_true.2 hcs
  refine ⟨⟨_, hblanks (s.toList.takeWhile isBlank) (fun _ => List.mem_takeWhile_imp)⟩,
    ⟨_, hblanks (rest.rtakeWhile isBlank) (fun _ => List.mem_rtakeWhile_imp)⟩, ?_⟩
  have hrest : rest.rdropWhile isBlank ++ rest.rtakeWhile isBlank = rest :=
    List.rdropWhile_append_rtakeWhile
  have htrim : (trim s).toList = rest.rdropWhile isBlank := String.toList_ofList
  rw [← String.toList_inj, String.toList_append, String.toList_append, String.toList_ofList,
    String.toList_ofList, htrim, List.append_assoc, hrest]
  exact List.takeWhile_append_dropWhile.symm

theorem trim_trim (s : String) : trim (trim s) = trim s := by
  obtain ⟨before, after, hs⟩ := exists_surrounded s
  rw [← trim_surrounded before after (trim s), ← hs]

theorem mem_of_mem_trim {s : String} {c : Char} (h : c ∈ (trim s).toList) : c ∈ s.toList := by
  obtain ⟨before, after, hs⟩ := exists_surrounded s
  rw [hs, String.toList_append, String.toList_append]
  exact List.mem_append_left _ (List.mem_append_right _ h)

theorem trim_of_isIdentifier {f : String} (h : isIdentifier f = true) : trim f = f := by
  have hblank : ∀ c ∈ f.toList, isBlank c = false := by
    intro c hc
    have hapart := (isIdentifier_apart h).2 c hc
    simp only [seedDelimiterRuns, inRuns, List.any_cons, Bool.or_eq_false_iff] at hapart
    exact hapart.2.2
  rw [trim, trimChars_eq_self (fun c hc => hblank c (List.mem_of_mem_head? hc))
    (fun c hc => hblank c (List.mem_of_mem_getLast? hc)), String.ofList_toList]

/-! ### Texts that are put together from two parts -/

theorem splitFirstChars_append {c : Char} {cs : List Char} (h : c ∉ cs) (ds : List Char) :
    splitFirstChars c (cs ++ c :: ds) = some (cs, ds) := by
  induction cs with
  | nil => exact if_pos rfl
  | cons d cs ih =>
    rw [List.mem_cons, not_or] at h
    rw [List.cons_append, splitFirstChars, if_neg (Ne.symm h.1), ih h.2]
    rfl

theorem splitLastChars_append {c : Char} (cs : List Char) {ds : List Char} (h : c ∉ ds) :
    splitLastChars c (cs ++ c :: ds) = some (cs, ds) := by
  induction cs with
  | nil => rw [List.nil_append, splitLastChars, splitLastChars_eq_none.2 h, if_pos rfl]
  | cons d cs ih => rw [List.cons_append, splitLastChars, ih]

end Text

/-! ### The division of a text -/

namespace Seed

open Text

/-- A text is divided at its first `#`, or at its last dot if it has none. -/
inductive Divides (text type field : String) : Prop where
  | hash (eq : text = type ++ "#" ++ field) (first : '#' ∉ type.toList)
  | dot (eq : text = type ++ "." ++ field) (noHash : '#' ∉ text.toList) (last : '.' ∉ field.toList)

variable {text type field : String}

theorem Divides.split_eq (h : Divides text type field) : split text = (type, field) := by
  unfold split
  cases h with
  | hash heq hfirst =>
    have hchars : text.toList = type.toList ++ '#' :: field.toList := by simp [heq]
    rw [splitFirst, hchars, splitFirstChars_append hfirst, Option.map_some]
    simp only [String.ofList_toList]
  | dot heq hhash hlast =>
    have hchars : text.toList = type.toList ++ '.' :: field.toList := by simp [heq]
    rw [splitFirst, splitFirstChars_eq_none.2 hhash, splitLast, hchars,
      splitLastChars_append _ hlast]
    simp only [Option.map_none, Option.map_some, Option.getD_some, String.ofList_toList]

/-- A text that has one of the separators is divided. -/
theorem exists_divides (h : '#' ∈ text.toList ∨ '.' ∈ text.toList) :
    ∃ type field, Divides text type field := by
  by_cases hhash : '#' ∈ text.toList
  · cases hsplit : splitFirstChars '#' text.toList with
    | none => exact absurd hhash (splitFirstChars_eq_none.1 hsplit)
    | some parts =>
      obtain ⟨hparts, hfirst⟩ := splitFirstChars_eq_some hsplit
      refine ⟨String.ofList parts.1, String.ofList parts.2, .hash ?_ (by simpa using hfirst)⟩
      rw [← String.toList_inj, hparts]
      simp
  · cases hsplit : splitLastChars '.' text.toList with
    | none => exact absurd (h.resolve_left hhash) (splitLastChars_eq_none.1 hsplit)
    | some parts =>
      obtain ⟨hparts, hlast⟩ := splitLastChars_eq_some hsplit
      refine ⟨String.ofList parts.1, String.ofList parts.2, .dot ?_ hhash (by simpa using hlast)⟩
      rw [← String.toList_inj, hparts]
      simp

theorem Divides.mem (h : Divides text type field) : '#' ∈ text.toList ∨ '.' ∈ text.toList := by
  cases h with
  | hash heq _ => exact .inl (by simp [heq])
  | dot heq _ _ => exact .inr (by simp [heq])

/-- Blanks are no separators. -/
theorem notMem_blanks {c : Char} (hc : isBlank c = false) (blanks : Blanks) :
    c ∉ blanks.text.toList :=
  fun hmem => Bool.eq_false_iff.1 hc (blanks.isBlank c hmem)

/-- Blanks around a text go to the outer sides of its parts. -/
theorem Divides.surrounded (h : Divides text type field) (before after : Blanks) :
    Divides (before.text ++ text ++ after.text) (before.text ++ type) (field ++ after.text) := by
  have hblanks : ∀ b : Blanks, '#' ∉ b.text.toList ∧ '.' ∉ b.text.toList :=
    fun b => ⟨notMem_blanks (by decide) b, notMem_blanks (by decide) b⟩
  cases h with
  | hash heq hfirst =>
    refine .hash (by simp only [heq, String.append_assoc]) ?_
    simp [hblanks before, hfirst]
  | dot heq hhash hlast =>
    refine .dot (by simp only [heq, String.append_assoc]) ?_ ?_
    · simp [hblanks before, hblanks after, hhash]
    · simp [hblanks after, hlast]

/-- What is read of a text are its two parts without the blanks around them. -/
theorem parse_of_divides (h : Divides text type field) :
    parse text =
      if trim type ≠ "" && isIdentifier (trim field) then .ok ⟨trim type, trim field⟩
      else .error ⟨trim text⟩ := by
  obtain ⟨before, after, htext⟩ := exists_surrounded text
  have hmem : '#' ∈ (trim text).toList ∨ '.' ∈ (trim text).toList := by
    have hmem := h.mem
    rw [htext] at hmem
    simpa [notMem_blanks (c := '#') (by decide), notMem_blanks (c := '.') (by decide)] using hmem
  obtain ⟨type', field', hdivides⟩ := exists_divides hmem
  -- the text is divided only once
  have hparts : (type, field) = (before.text ++ type', field' ++ after.text) := by
    rw [← h.split_eq, ← (hdivides.surrounded before after).split_eq, ← htext]
  cases hparts
  have htype : trim (before.text ++ type') = trim type' := by
    simpa [Blanks.none] using trim_surrounded before .none type'
  have hfield : trim (field' ++ after.text) = trim field' := by
    simpa [Blanks.none] using trim_surrounded .none after field'
  rw [htype, hfield, parse, hdivides.split_eq]

/-- A text without separators names no field. -/
theorem parse_of_not_divides (h : ∀ type field, ¬ Divides text type field) :
    parse text = .error ⟨trim text⟩ := by
  have hnone : ∀ c ∈ (trim text).toList, c ≠ '#' ∧ c ≠ '.' := by
    intro c hc
    constructor
    · rintro rfl
      obtain ⟨type, field, hdivides⟩ := exists_divides (.inl (mem_of_mem_trim hc))
      exact h type field hdivides
    · rintro rfl
      obtain ⟨type, field, hdivides⟩ := exists_divides (.inr (mem_of_mem_trim hc))
      exact h type field hdivides
  have hsplit : split (trim text) = ("", trim text) := by
    unfold split
    rw [splitFirst, splitFirstChars_eq_none.2 (fun hc => (hnone _ hc).1 rfl), splitLast,
      splitLastChars_eq_none.2 (fun hc => (hnone _ hc).2 rfl)]
    rfl
  rw [parse, hsplit]
  rfl

theorem parse_eq_ok_iff {r : FieldRef} :
    parse text = .ok r ↔ ∃ type field, Divides text type field ∧
      trim type ≠ "" ∧ isIdentifier (trim field) = true ∧ r = ⟨trim type, trim field⟩ := by
  constructor
  · intro h
    by_cases hdivides : ∃ type field, Divides text type field
    · obtain ⟨type, field, hdivides⟩ := hdivides
      rw [parse_of_divides hdivides] at h
      split at h
      next hnames =>
        rw [Bool.and_eq_true, decide_eq_true_eq] at hnames
        exact ⟨type, field, hdivides, hnames.1, hnames.2, (Except.ok.inj h).symm⟩
      next => cases h
    · rw [parse_of_not_divides (fun type field hd => hdivides ⟨type, field, hd⟩)] at h
      cases h
  · rintro ⟨type, field, hdivides, htype, hfield, rfl⟩
    rw [parse_of_divides hdivides, if_pos]
    rw [Bool.and_eq_true, decide_eq_true_eq]
    exact ⟨htype, hfield⟩

/-- A text that names no field is given back trimmed. -/
theorem eq_of_parse_eq_error {e : SeedError} (h : parse text = .error e) : e = ⟨trim text⟩ := by
  rw [parse] at h
  split at h
  next => cases h
  next => exact (Except.error.inj h).symm

theorem parse_eq_error_iff {e : SeedError} :
    parse text = .error e ↔ e = ⟨trim text⟩ ∧
      ¬ ∃ type field, Divides text type field ∧
        trim type ≠ "" ∧ isIdentifier (trim field) = true := by
  constructor
  · intro h
    refine ⟨eq_of_parse_eq_error h, fun ⟨type, field, hdivides, htype, hfield⟩ => ?_⟩
    rw [parse_eq_ok_iff.2 ⟨type, field, hdivides, htype, hfield, rfl⟩] at h
    cases h
  · rintro ⟨rfl, hnames⟩
    cases hparse : parse text with
    | ok r =>
      obtain ⟨type, field, hdivides, htype, hfield, -⟩ := parse_eq_ok_iff.1 hparse
      exact absurd ⟨type, field, hdivides, htype, hfield⟩ hnames
    | error e => rw [eq_of_parse_eq_error hparse]

/-! ### Texts of fields -/

/-- A type text and an identifier are put together by either separator. -/
theorem divides_parts (hhash : '#' ∉ type.toList) (hfield : '#' ∉ field.toList ∧ '.' ∉ field.toList)
    {separator : String} (hseparator : separator ∈ [".", "#"]) :
    Divides (type ++ separator ++ field) type field := by
  simp only [List.mem_cons, List.not_mem_nil, or_false] at hseparator
  obtain rfl | rfl := hseparator
  · exact .dot rfl (by simp [hhash, hfield.1]) hfield.2
  · exact .hash rfl hhash

/-- Blanks around the parts do not count. -/
theorem parse_parts (htype : type ≠ "") (htrim : trim type = type) (hhash : '#' ∉ type.toList)
    (hfield : isIdentifier field = true) {separator : String} (hseparator : separator ∈ [".", "#"])
    (b₁ b₂ b₃ b₄ : Blanks) :
    parse ((b₁.text ++ type ++ b₂.text) ++ separator ++ (b₃.text ++ field ++ b₄.text)) =
      .ok ⟨type, field⟩ := by
  have hblanks : ∀ b : Blanks, '#' ∉ b.text.toList ∧ '.' ∉ b.text.toList :=
    fun b => ⟨notMem_blanks (by decide) b, notMem_blanks (by decide) b⟩
  have hseparators : '#' ∉ field.toList ∧ '.' ∉ field.toList :=
    ⟨notMem_of_isIdentifier (by decide) hfield, notMem_of_isIdentifier (by decide) hfield⟩
  have hdivides : Divides _ (b₁.text ++ type ++ b₂.text) (b₃.text ++ field ++ b₄.text) :=
    divides_parts (by simp [hblanks, hhash]) (by simp [hblanks, hseparators]) hseparator
  refine parse_eq_ok_iff.2 ⟨_, _, hdivides, ?_, ?_, ?_⟩
  · rwa [trim_surrounded, htrim]
  · rwa [trim_surrounded, trim_of_isIdentifier hfield]
  · rw [trim_surrounded, trim_surrounded, htrim, trim_of_isIdentifier hfield]

/-- The type that was read has no `#`, since the text is divided at its first one. -/
theorem Divides.notMem_type (h : Divides text type field) : '#' ∉ type.toList := by
  cases h with
  | hash _ hfirst => exact hfirst
  | dot heq hhash _ =>
    rw [heq, String.toList_append, String.toList_append, List.append_assoc] at hhash
    exact fun hmem => hhash (List.mem_append_left _ hmem)

/-- The text of a field that was read names it again. -/
theorem parse_text {r : FieldRef} (h : parse text = .ok r) : parse r.text = .ok r := by
  obtain ⟨type, field, hdivides, htype, hfield, rfl⟩ := parse_eq_ok_iff.1 h
  have hhash : '#' ∉ (trim type).toList := fun hmem => hdivides.notMem_type (mem_of_mem_trim hmem)
  have hdot : "." ∈ [".", "#"] := List.mem_cons_self
  have hparts := parse_parts htype (trim_trim type) hhash hfield hdot .none .none .none .none
  simpa [Blanks.none, FieldRef.text] using hparts

/-- A field that was read off a text is read off its own text again. A trimmed type text without `#`
and an identifier are read as they stand, with a dot or a `#` in between and blanks around them.
Only those texts name no field whose parts are not a type and an identifier, where they are divided
at the first `#` or else at the last dot. -/
theorem seed_texts_round_trip :
    (∀ text r, parse text = .ok r → parse r.text = .ok r) ∧
    (∀ type field : String, type ≠ "" → trim type = type → '#' ∉ type.toList →
      isIdentifier field = true → ∀ separator ∈ [".", "#"],
        parse (type ++ separator ++ field) = .ok ⟨type, field⟩ ∧
        ∀ b₁ b₂ b₃ b₄ : Blanks,
          parse ((b₁.text ++ type ++ b₂.text) ++ separator ++ (b₃.text ++ field ++ b₄.text)) =
            .ok ⟨type, field⟩) ∧
    ∀ text e, parse text = .error e ↔ e = ⟨trim text⟩ ∧
      ¬ ∃ type field, Divides text type field ∧
        trim type ≠ "" ∧ isIdentifier (trim field) = true := by
  refine ⟨fun _ _ => parse_text, ?_, fun _ _ => parse_eq_error_iff⟩
  intro type field htype htrim hhash hfield separator hseparator
  have hparts := parse_parts htype htrim hhash hfield hseparator
  exact ⟨by simpa [Blanks.none] using hparts .none .none .none .none, hparts⟩

end Seed

/-- A field of a type in a package, with blanks on all sides. Its own text has the dot instead of the
`#`, and more dots before it; with a dash in the field's name no field is named. -/
theorem seed_texts_round_trip_amount :
    Seed.parse " shop.Order\t# amount " = .ok ⟨"shop.Order", "amount"⟩ ∧
      Seed.parse "shop.Order.amount" = .ok ⟨"shop.Order", "amount"⟩ ∧
      Seed.parse "shop.Order#amount" = .ok ⟨"shop.Order", "amount"⟩ ∧
      Seed.parse " Order#net-amount" = .error ⟨"Order#net-amount"⟩ := by
  obtain ⟨hround, hparts, herror⟩ := Seed.seed_texts_round_trip
  obtain ⟨hplain, hblanks⟩ :=
    hparts "shop.Order" "amount" (by decide) (by decide +kernel) (by decide) (by decide +kernel) "#"
      (by decide)
  have hread : Seed.parse " shop.Order\t# amount " = .ok ⟨"shop.Order", "amount"⟩ := by
    have htext : " " ++ "shop.Order" ++ "\t" ++ "#" ++ (" " ++ "amount" ++ " ") =
        " shop.Order\t# amount " := by decide +kernel
    rw [← htext]
    exact hblanks ⟨" ", rfl⟩ ⟨"\t", rfl⟩ ⟨" ", rfl⟩ ⟨" ", rfl⟩
  refine ⟨hread, ?_, ?_, (herror _ _).2 ⟨by decide +kernel, ?_⟩⟩
  · have htext : FieldRef.text ⟨"shop.Order", "amount"⟩ = "shop.Order.amount" := by decide +kernel
    rw [← htext]
    exact hround _ _ hread
  · have htext : "shop.Order" ++ "#" ++ "amount" = "shop.Order#amount" := by decide +kernel
    rw [← htext]
    exact hplain
  · rintro ⟨type, field, hdivides, -, hfield⟩
    have hsplit : Seed.split " Order#net-amount" = (" Order", "net-amount") := by decide +kernel
    rw [hdivides.split_eq] at hsplit
    rw [(Prod.mk.inj hsplit).2] at hfield
    revert hfield
    decide +kernel

end FieldTrace
