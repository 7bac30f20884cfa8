import FieldTrace.Proofs.Registration

/-! # Qualified names

A type text is qualified by what is left of it without type arguments and outer blanks, in as many
steps as that has characters (`Registry.qualify_congr`). Where types and imports are filed under
their simple names, qualifying puts something before a name and leaves its last part as it is
(`Registry.simpleName_qualify`). -/

namespace FieldTrace

open Syntax

/-! ### Cutting texts -/

namespace Text

theorem takeWhile_ne_append {c : Char} {cs : List Char} (h : c ∉ cs) (ds : List Char) :
    (cs ++ ds).takeWhile (fun d => d ≠ c) = cs ++ ds.takeWhile (fun d => d ≠ c) :=
  List.takeWhile_append_of_pos (fun _ hd => decide_eq_true (fun heq => h (heq ▸ hd)))

theorem takeWhile_ne_of_notMem {c : Char} {cs : List Char} (h : c ∉ cs) :
    cs.takeWhile (fun d => d ≠ c) = cs := by
  simpa using takeWhile_ne_append h []

/-- All is taken up to the first occurrence. -/
theorem takeWhile_ne_append_cons {c : Char} {cs : List Char} (h : c ∉ cs) (ds : List Char) :
    (cs ++ c :: ds).takeWhile (fun d => d ≠ c) = cs := by
  rw [takeWhile_ne_append h, List.takeWhile_cons_of_neg (by simp), List.append_nil]

theorem beforeFirst_eq_takeWhile (c : Char) (s : String) :
    beforeFirst c s = String.ofList (s.toList.takeWhile (fun d => d ≠ c)) := by
  unfold beforeFirst splitFirst
  cases hsplit : splitFirstChars c s.toList with
  | none =>
    rw [takeWhile_ne_of_notMem (splitFirstChars_eq_none.1 hsplit), String.ofList_toList]
    rfl
  | some p =>
    obtain ⟨hs, hc⟩ := splitFirstChars_eq_some hsplit
    rw [hs, takeWhile_ne_append_cons hc]
    rfl

theorem eq_of_splitFirst {s head rest : String} (h : splitFirst '.' s = some (head, rest)) :
    s = head ++ "." ++ rest := by
  obtain ⟨p, hp, heq⟩ := Option.map_eq_some_iff.1 h
  cases heq
  rw [← String.toList_inj, (splitFirstChars_eq_some hp).1]
  simp

theorem trimChars_append_blanks {cs bs : List Char} (h : ∀ c ∈ bs, isBlank c = true) :
    trimChars (cs ++ bs) = trimChars cs := by
  have hbs : bs.dropWhile isBlank = [] := by
    simpa using @List.dropWhile_append_of_pos _ _ _ [] h
  have hreverse : ∀ c ∈ bs.reverse, isBlank c = true := fun c hc => h c (List.mem_reverse.1 hc)
  unfold trimChars
  rw [List.dropWhile_append]
  split
  next hempty => rw [hbs, List.isEmpty_iff.1 hempty]
  next => rw [List.reverse_append, List.dropWhile_append_of_pos hreverse]

/-- A text that begins and ends with something else than a blank is not trimmed. -/
theorem trimChars_eq_self {cs : List Char} (hfirst : ∀ c ∈ cs.head?, isBlank c = false)
    (hlast : ∀ c ∈ cs.getLast?, isBlank c = false) : trimChars cs = cs := by
  have hkeeps : ∀ ds : List Char, (∀ c ∈ ds.head?, isBlank c = false) →
      ds.dropWhile isBlank = ds := by
    rintro (_ | ⟨d, ds⟩) hd
    · rfl
    · exact List.dropWhile_cons_of_neg (by simp [hd d rfl])
  unfold trimChars
  rw [hkeeps cs hfirst, hkeeps cs.reverse (by rwa [List.head?_reverse]), List.reverse_reverse]

/-- What follows the last dot of a text is what follows the last dot after any dot of it. -/
theorem afterLast_append (c : Char) (s rest : String) :
    afterLast c (s ++ (String.singleton c ++ rest)) = afterLast c rest := by
  have hsplit : ∀ xs : List Char, ∃ before, splitLastChars c (xs ++ c :: rest.toList) =
      some (before, ((splitLastChars c rest.toList).map Prod.snd).getD rest.toList) := by
    intro xs
    induction xs with
    | nil =>
      rw [List.nil_append, splitLastChars]
      cases splitLastChars c rest.toList with
      | none => exact ⟨[], if_pos rfl⟩
      | some p => exact ⟨c :: p.1, rfl⟩
    | cons d xs ih =>
      obtain ⟨before, hbefore⟩ := ih
      rw [List.cons_append, splitLastChars, hbefore]
      exact ⟨d :: before, rfl⟩
  obtain ⟨before, hbefore⟩ := hsplit s.toList
  have htext : (s ++ (String.singleton c ++ rest)).toList = s.toList ++ c :: rest.toList := by
    simp
  unfold afterLast splitLast
  rw [htext, hbefore]
  cases splitLastChars c rest.toList with
  | none => exact String.ofList_toList
  | some p => rfl

/-- What follows the last dot is the end of the text. -/
theorem exists_eq_append_afterLast (c : Char) (s : String) :
    ∃ before, s = before ++ afterLast c s := by
  unfold afterLast splitLast
  cases hsplit : splitLastChars c s.toList with
  | none => exact ⟨"", by simp⟩
  | some p =>
    refine ⟨String.ofList p.1 ++ String.singleton c, ?_⟩
    rw [← String.toList_inj, (splitLastChars_eq_some hsplit).1]
    simp

theorem afterLast_of_notMem {c : Char} {s : String} (h : c ∉ s.toList) : afterLast c s = s := by
  rw [afterLast, splitLast, splitLastChars_eq_none.2 h]
  rfl

end Text

theorem simpleName_append (text rest : String) :
    simpleName (text ++ "." ++ rest) = simpleName rest := by
  rw [String.append_assoc]
  exact Text.afterLast_append '.' text rest

/-! ### Type texts without their arguments -/

theorem stripGenerics_eq (text : String) : stripGenerics text =
    String.ofList (Text.trimChars (text.toList.takeWhile (fun c => c ≠ '<'))) := by
  rw [stripGenerics, Text.beforeFirst_eq_takeWhile, Text.trim, String.toList_ofList]

theorem length_stripGenerics_le (text : String) : (stripGenerics text).length ≤ text.length := by
  rw [stripGenerics_eq, ← String.length_toList, String.toList_ofList, ← String.length_toList]
  exact Nat.le_trans (Text.length_trimChars_le _) (List.takeWhile_sublist _).length_le

/-- Where a text has type arguments, what follows them does not count. -/
theorem stripGenerics_append {text : String} (h : '<' ∈ text.toList) (rest : String) :
    stripGenerics (text ++ rest) = stripGenerics text := by
  obtain ⟨before, after, htext, hbefore⟩ := List.eq_append_cons_of_mem h
  rw [stripGenerics_eq, stripGenerics_eq, String.toList_append, htext, List.append_assoc,
    List.cons_append, Text.takeWhile_ne_append_cons hbefore, Text.takeWhile_ne_append_cons hbefore]

/-- Type arguments do not count, nor do blanks before them. -/
theorem stripGenerics_arguments (text : String) {gap : String}
    (hgap : ∀ c ∈ gap.toList, Text.isBlank c = true) (rest : String) :
    stripGenerics (text ++ (gap ++ "<" ++ rest)) = stripGenerics text := by
  by_cases h : '<' ∈ text.toList
  · exact stripGenerics_append h _
  · have hbefore : '<' ∉ text.toList ++ gap.toList := by
      intro hmem
      obtain hmem | hmem := List.mem_append.1 hmem
      · exact h hmem
      · exact absurd (hgap _ hmem) (by decide)
    have htext : (text ++ (gap ++ "<" ++ rest)).toList =
        (text.toList ++ gap.toList) ++ '<' :: rest.toList := by
      simp
    rw [stripGenerics_eq, stripGenerics_eq, htext, Text.takeWhile_ne_append_cons hbefore,
      Text.trimChars_append_blanks hgap, Text.takeWhile_ne_of_notMem h]

/-- A text without type arguments and outer blanks is left as it is. -/
theorem stripGenerics_eq_self {text : String} (h : '<' ∉ text.toList)
    (hfirst : ∀ c ∈ text.toList.head?, Text.isBlank c = false)
    (hlast : ∀ c ∈ text.toList.getLast?, Text.isBlank c = false) : stripGenerics text = text := by
  rw [stripGenerics_eq, Text.takeWhile_ne_of_notMem h, Text.trimChars_eq_self hfirst hlast,
    String.ofList_toList]

/-! ### Qualifying -/

namespace Registry

variable {reg : Registry} {ctx : NameContext} {chain : List String}

/-- A step of qualifying leads to shorter texts. -/
theorem length_dropLast_lt {name : String} (h : Text.endsWith name "[]" = true) :
    (Text.dropLast 2 name).length < name.length := by
  have hlength := (List.isSuffixOf_iff_suffix.1 h).length_le
  rw [Text.dropLast, ← String.length_toList, String.toList_ofList, List.length_take,
    ← String.length_toList]
  simp only [String.reduceToList, List.length_cons, List.length_nil] at hlength
  omega

theorem length_head_lt {name head rest : String}
    (h : Text.splitFirst '.' name = some (head, rest)) : head.length < name.length := by
  rw [Text.eq_of_splitFirst h, String.length_append, String.length_append]
  have hdot : ".".length = 1 := rfl
  omega

/-- Texts that are the same without type arguments are qualified alike, whatever the number of
steps, if only it suffices. -/
theorem qualifyWithin_congr (bound bound' : Nat) {text text' : String}
    (h : stripGenerics text = stripGenerics text') (hbound : (stripGenerics text).length < bound)
    (hbound' : (stripGenerics text).length < bound') :
    reg.qualifyWithin ctx chain bound text = reg.qualifyWithin ctx chain bound' text' := by
  induction bound generalizing bound' text text' with
  | zero => exact absurd hbound (Nat.not_lt_zero _)
  | succ bound ih =>
    obtain _ | bound' := bound'
    · exact absurd hbound' (Nat.not_lt_zero _)
    -- a shorter text is qualified alike in the steps that are left
    have hstep : ∀ shorter : String, shorter.length < (stripGenerics text).length →
        reg.qualifyWithin ctx chain bound shorter = reg.qualifyWithin ctx chain bound' shorter := by
      intro shorter hshorter
      have hlength := length_stripGenerics_le shorter
      exact ih bound' rfl (by omega) (by omega)
    unfold qualifyWithin
    rw [← h]
    dsimp only
    split
    next hends => rw [hstep _ (length_dropLast_lt hends)]
    next =>
      split
      next => rfl
      next =>
        split
        next head rest hsplit => rw [hstep head (length_head_lt hsplit)]
        next => rfl

theorem qualify_congr {text text' : String} (h : stripGenerics text = stripGenerics text') :
    reg.qualify ctx chain text = reg.qualify ctx chain text' := by
  have hlength := length_stripGenerics_le text
  have hlength' := length_stripGenerics_le text'
  rw [← h] at hlength'
  exact qualifyWithin_congr _ _ h (by omega) (by omega)

/-! ### Simple names -/

/-- Types and imports are filed under their simple names. -/
structure FiledSimply (reg : Registry) (ctx : NameContext) : Prop where
  imported : ctx.imports.Keyed (fun name target => FieldTrace.simpleName target = name)
  listed : ∀ name, ∀ qualified ∈ reg.bySimpleName.getD name [],
    FieldTrace.simpleName qualified = FieldTrace.simpleName name

theorem simpleName_qualifiedName (package : String) (outer : Option String) (simple : String) :
    FieldTrace.simpleName (qualifiedName package outer simple) = FieldTrace.simpleName simple := by
  unfold qualifiedName
  dsimp only
  split
  · rfl
  · exact simpleName_append _ simple

/-- An import is filed under its simple name. -/
theorem keyed_imports_ofFile (f : SourceFile) : (NameContext.ofFile f).imports.Keyed
    (fun name target => FieldTrace.simpleName target = name) := by
  refine List.foldlRecOn (motive := fun ctx : NameContext => ctx.imports.Keyed _)
    f.tree.namedChildren _ Table.keyed_empty ?_
  intro ctx hctx t _
  unfold NameContext.addDeclaration
  split
  · split <;> exact hctx
  · split
    · unfold NameContext.addImport
      split
      · exact hctx
      · split
        · exact hctx
        · split
          · exact hctx
          · exact hctx.insert rfl
    · exact hctx

variable {files : List SourceFile}

/-- The name of a type ends with its simple name. -/
theorem simpleName_of_mem_headers : ∀ h ∈ (ofFiles files).headers,
    FieldTrace.simpleName h.name = FieldTrace.simpleName h.simpleName := by
  refine invariant_ofFiles (P := fun reg => ∀ h ∈ reg.headers,
    FieldTrace.simpleName h.name = FieldTrace.simpleName h.simpleName) (by rintro h ⟨⟩) ?_
  rintro reg _ (@⟨site, r, -, -, hentry, -, hnew⟩) hreg h hh
  rw [headers_add hnew] at hh
  obtain hh | hh := List.mem_append.1 hh
  · exact hreg h hh
  · obtain ⟨-, -, -, ⟨package, hname⟩, -⟩ := TypeSite.registration?_eq_some hentry
    rw [List.mem_singleton.1 hh, hname]
    exact simpleName_qualifiedName _ _ _

/-- The names in a type are read with the imports of its file. -/
theorem context_of_mem_values :
    ∀ r ∈ (ofFiles files).types.values, r.context = .ofFile r.file := by
  refine invariant_ofFiles (P := fun reg => ∀ r ∈ reg.types.values, r.context = .ofFile r.file)
    (by rintro r ⟨⟩) ?_
  rintro reg _ (@⟨site, r, -, -, hentry, -, -⟩) hreg r' hr'
  obtain hr' | rfl := Table.mem_values_insert hr'
  · exact hreg r' hr'
  · obtain ⟨_, -, hentry⟩ := Option.bind_eq_some_iff.1 hentry
    obtain ⟨_, -, hentry⟩ := Option.bind_eq_some_iff.1 hentry
    cases hentry
    rfl

/-- The types of a project are filed simply, and so are the imports of a file. -/
theorem filedSimply_ofFiles (files : List SourceFile) (f : SourceFile) :
    FiledSimply (ofFiles files) (.ofFile f) where
  imported := keyed_imports_ofFile f
  listed := by
    intro name qualified hq
    rw [bySimpleName_ofFiles] at hq
    obtain ⟨h, hh, rfl⟩ := List.mem_map.1 hq
    obtain ⟨hh, hsimple⟩ := List.mem_filter.1 hh
    rw [simpleName_of_mem_headers h hh, of_decide_eq_true hsimple]

theorem filedSimply_of_mem_values {r : Registration} (hr : r ∈ (ofFiles files).types.values) :
    FiledSimply (ofFiles files) r.context := by
  rw [context_of_mem_values r hr]
  exact filedSimply_ofFiles files r.file

theorem simpleName_qualifySimple (h : FiledSimply reg ctx) {name : String}
    (hname : '.' ∉ name.toList) :
    FieldTrace.simpleName (reg.qualifySimple ctx chain name) = FieldTrace.simpleName name := by
  have hself : FieldTrace.simpleName name = name := Text.afterLast_of_notMem hname
  unfold qualifySimple
  split
  next target htarget => rw [h.imported.get? htarget, hself]
  next =>
    split
    next qualified hfound =>
      -- a candidate is the name after a dot
      have hmem := List.mem_of_find?_eq_some hfound
      simp only [candidates, List.mem_append, List.mem_map] at hmem
      obtain (⟨outer, -, rfl⟩ | hmem) | ⟨package, -, rfl⟩ := hmem
      · exact simpleName_append outer name
      · split at hmem
        · cases hmem
        · rw [List.mem_singleton.1 hmem]
          exact simpleName_append _ name
      · exact simpleName_append package name
    next =>
      cases hhead : (reg.bySimpleName.getD name []).head? with
      | none => rfl
      | some qualified => exact h.listed name qualified (List.mem_of_mem_head? hhead)

/-- Qualifying keeps the simple name. -/
theorem simpleName_qualify (h : FiledSimply reg ctx) {name : String}
    (hname : stripGenerics name = name) (hbrackets : Text.endsWith name "[]" = false) :
    FieldTrace.simpleName (reg.qualify ctx chain name) = FieldTrace.simpleName name := by
  unfold qualify qualifyWithin
  rw [hname]
  dsimp only
  rw [if_neg (by rw [hbrackets]; exact Bool.false_ne_true)]
  split
  next => rfl
  next =>
    split
    next head rest hsplit =>
      split
      next =>
        have hname' : FieldTrace.simpleName name = FieldTrace.simpleName rest := by
          rw [Text.eq_of_splitFirst hsplit]
          exact simpleName_append head rest
        rw [hname']
        exact simpleName_append _ rest
      next => rfl
    next hsplit =>
      rw [Text.splitFirst, Option.map_eq_none_iff] at hsplit
      exact simpleName_qualifySimple h (Text.splitFirstChars_eq_none.1 hsplit)

end Registry

end FieldTrace
