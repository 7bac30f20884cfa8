/-! # Splitting texts

Splitting at the first or the last occurrence of a character, and occurrence of one text in
another. -/

namespace FieldTrace.Text

/-! ### Lists of characters -/

/-- The parts before and after the first `c`, if there is one. -/
def splitFirstChars (c : Char) : List Char → Option (List Char × List Char)
  | [] => none
  | d :: ds =>
    if d = c then some ([], ds) else (splitFirstChars c ds).map (fun p => (d :: p.1, p.2))

/-- The parts before and after the last `c`, if there is one. -/
def splitLastChars (c : Char) : List Char → Option (List Char × List Char)
  | [] => none
  | d :: ds =>
    match splitLastChars c ds with
    | some p => some (d :: p.1, p.2)
    | none => if d = c then some ([], ds) else none

/-- Does the first text occur in the second? -/
def occursInChars (pattern : List Char) : List Char → Bool
  | [] => pattern.isEmpty
  | c :: cs => pattern.isPrefixOf (c :: cs) || occursInChars pattern cs

/-! ### Texts -/

/-- The parts before and after the first `c`, if there is one. -/
def splitFirst (c : Char) (s : String) : Option (String × String) :=
  (splitFirstChars c s.toList).map (fun p => (String.ofList p.1, String.ofList p.2))

/-- The parts before and after the last `c`, if there is one. -/
def splitLast (c : Char) (s : String) : Option (String × String) :=
  (splitLastChars c s.toList).map (fun p => (String.ofList p.1, String.ofList p.2))

/-- The part before the first `c`, the whole text if there is none. -/
def beforeFirst (c : Char) (s : String) : String :=
  match splitFirst c s with
  | some p => p.1
  | none => s

/-- The part after the last `c`, the whole text if there is none. -/
def afterLast (c : Char) (s : String) : String :=
  match splitLast c s with
  | some p => p.2
  | none => s

/-- Does the first text occur in the second? -/
def occursIn (pattern s : String) : Bool := occursInChars pattern.toList s.toList

/-- Does `s` begin with `opening`? -/
def startsWith (s opening : String) : Bool := opening.toList.isPrefixOf s.toList

/-- Does `s` end with `ending`? -/
def endsWith (s ending : String) : Bool := ending.toList.isSuffixOf s.toList

/-- The text without its last `n` characters. -/
def dropLast (n : Nat) (s : String) : String := String.ofList (s.toList.take (s.toList.length - n))

/-- The texts one after the other, with a separator in between. -/
def join (separator : String) (parts : List String) : String :=
  String.intercalate separator parts

/-! ### The parts put together again -/

theorem splitFirstChars_eq_some {c : Char} {cs a b : List Char}
    (h : splitFirstChars c cs = some (a, b)) : cs = a ++ c :: b ∧ c ∉ a := by
  induction cs generalizing a with
  | nil => simp [splitFirstChars] at h
  | cons d ds ih =>
    simp only [splitFirstChars] at h
    split at h
    · next hd => cases h; simp [hd]
    · next hd =>
      obtain ⟨p, hp, he⟩ := Option.map_eq_some_iff.mp h
      cases he
      obtain ⟨hs, hn⟩ := ih hp
      exact ⟨by simp [← hs], by simp [Ne.symm hd, hn]⟩

theorem splitFirstChars_eq_none {c : Char} {cs : List Char} :
    splitFirstChars c cs = none ↔ c ∉ cs := by
  induction cs with
  | nil => simp [splitFirstChars]
  | cons d ds ih =>
    simp only [splitFirstChars]
    split
    · next hd => simp [hd]
    · next hd => simp [ih, Ne.symm hd]

theorem splitLastChars_eq_none {c : Char} {cs : List Char} :
    splitLastChars c cs = none ↔ c ∉ cs := by
  induction cs with
  | nil => simp [splitLastChars]
  | cons d ds ih =>
    simp only [splitLastChars]
    cases h : splitLastChars c ds with
    | some p => simp [h] at ih; simp [ih]
    | none =>
      simp only [h, true_iff] at ih
      by_cases hd : d = c
      · simp [hd]
      · simp [hd, ih, Ne.symm hd]

theorem splitLastChars_eq_some {c : Char} {cs a b : List Char}
    (h : splitLastChars c cs = some (a, b)) : cs = a ++ c :: b ∧ c ∉ b := by
  induction cs generalizing a with
  | nil => simp [splitLastChars] at h
  | cons d ds ih =>
    simp only [splitLastChars] at h
    cases hds : splitLastChars c ds with
    | some p =>
      simp only [hds, Option.some.injEq, Prod.mk.injEq] at h
      obtain ⟨rfl, rfl⟩ := h
      obtain ⟨hs, hn⟩ := ih (a := p.1) (by simp [hds])
      exact ⟨by simp [← hs], hn⟩
    | none =>
      simp only [hds] at h
      split at h
      · next hd => cases h; exact ⟨by simp [hd], splitLastChars_eq_none.mp hds⟩
      · cases h

end FieldTrace.Text
