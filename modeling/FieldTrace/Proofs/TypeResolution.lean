import FieldTrace.Proofs.Declarations
import FieldTrace.Proofs.Qualification

/-! # Types by name

A text names a registered type from nowhere in particular in three steps: by its qualified name, by
its simple name, or by the end of its qualified name. Where simple names have no dots, a type is
found by its simple name exactly if its qualified name ends with a dot and the text
(`Registry.simpleName_eq_iff_endsWith`), so that the last two steps are one search in the order of
registration. -/

namespace FieldTrace

open Syntax

/-! ### Ends of texts -/

namespace Text

theorem endsWith_iff {s ending : String} : endsWith s ending = true ↔ ∃ p, s = p ++ ending := by
  rw [endsWith, List.isSuffixOf_iff_suffix]
  constructor
  · rintro ⟨cs, hcs⟩
    refine ⟨String.ofList cs, ?_⟩
    rw [← String.toList_inj, String.toList_append, String.toList_ofList, hcs]
  · rintro ⟨p, rfl⟩
    rw [String.toList_append]
    exact List.suffix_append _ _

/-- A text with dots ends with its last dot and what follows it. -/
theorem exists_eq_append_dot {s : String} (h : '.' ∈ s.toList) :
    ∃ p, s = p ++ "." ++ afterLast '.' s := by
  unfold afterLast splitLast
  cases hsplit : splitLastChars '.' s.toList with
  | none => exact absurd h (splitLastChars_eq_none.1 hsplit)
  | some parts =>
    refine ⟨String.ofList parts.1, ?_⟩
    rw [← String.toList_inj, (splitLastChars_eq_some hsplit).1]
    simp

end Text

theorem simpleName_of_notMem {name : String} (h : '.' ∉ name.toList) : simpleName name = name :=
  Text.afterLast_of_notMem h

/-- A text ends with a dot and a name without dots exactly if that is its last part. -/
theorem endsWith_dot_iff {name q : String} (h : '.' ∉ name.toList) :
    Text.endsWith q ("." ++ name) = true ↔ '.' ∈ q.toList ∧ simpleName q = name := by
  rw [Text.endsWith_iff]
  constructor
  · rintro ⟨p, rfl⟩
    rw [← String.append_assoc]
    refine ⟨by simp, ?_⟩
    rw [simpleName_append, simpleName_of_notMem h]
  · rintro ⟨hdot, rfl⟩
    obtain ⟨p, hp⟩ := Text.exists_eq_append_dot hdot
    exact ⟨p, by rw [← String.append_assoc]; exact hp⟩

/-! ### Names of registered types -/

/-- The parts of a type's name are tokens: its simple name is an identifier, which has neither dots
nor blanks, and its package, if it has one, begins with one. -/
structure TypeHeader.NamedByTokens (h : TypeHeader) : Prop where
  simple : ∀ c ∈ h.simpleName.toList, c ≠ '.' ∧ Text.isBlank c = false
  package : ∀ c ∈ h.package.toList.head?, Text.isBlank c = false

instance (h : TypeHeader) : Decidable h.NamedByTokens :=
  decidable_of_iff
    (h.simpleName.toList.all (fun c => !decide (c = '.') && !Text.isBlank c) = true ∧
      h.package.toList.head?.all (fun c => !Text.isBlank c) = true) (by
    constructor
    · rintro ⟨hsimple, hpackage⟩
      refine ⟨fun c hc => ?_, fun c hc => ?_⟩
      · simpa using List.all_eq_true.1 hsimple c hc
      · rw [Option.mem_def.1 hc] at hpackage
        simpa using hpackage
    · rintro ⟨hsimple, hpackage⟩
      refine ⟨List.all_eq_true.2 (fun c hc => by simpa using hsimple c hc), ?_⟩
      cases hfirst : h.package.toList.head? with
      | none => rfl
      | some c => simpa using hpackage c hfirst)

theorem TypeHeader.NamedByTokens.noDots {h : TypeHeader} (hh : h.NamedByTokens) :
    '.' ∉ h.simpleName.toList :=
  fun hdot => (hh.simple '.' hdot).1 rfl

namespace Registry

variable {files : List SourceFile} {h : TypeHeader} {n : String}

theorem mem_keys_iff_mem_headers :
    n ∈ (ofFiles files).types.keys ↔ ∃ h ∈ (ofFiles files).headers, h.name = n := by
  rw [← Table.contains_iff]
  exact (isType_iff_mem_headers (wellNamed_ofFiles files)).trans List.mem_map

/-- The qualified name of a type is made from its package or the type around it, which is registered
too. -/
theorem name_of_mem_headers : ∀ h ∈ (ofFiles files).headers,
    h.name = qualifiedName h.package h.outer h.simpleName ∧
      ∀ o, h.outer = some o → (ofFiles files).isType o = true := by
  refine invariant_ofFiles (P := fun reg => ∀ h ∈ reg.headers,
    h.name = qualifiedName h.package h.outer h.simpleName ∧
      ∀ o, h.outer = some o → reg.isType o = true) (by rintro h ⟨⟩) ?_
  rintro reg _ (@⟨site, r, hfile, hnode, hentry, houter, hnew⟩) hreg h hh
  have hstep : Step files reg (reg.add r) := .add hfile hnode hentry houter hnew
  rw [headers_add hnew] at hh
  obtain hh | hh := List.mem_append.1 hh
  · exact ⟨(hreg h hh).1, fun o ho => hstep.isType ((hreg h hh).2 o ho)⟩
  · rw [List.mem_singleton.1 hh]
    obtain ⟨_, -, hentry⟩ := Option.bind_eq_some_iff.1 hentry
    obtain ⟨_, -, hentry⟩ := Option.bind_eq_some_iff.1 hentry
    cases hentry
    exact ⟨rfl, fun o ho => hstep.isType (houter o ho)⟩

theorem simpleName_name (hh : h ∈ (ofFiles files).headers) (htokens : h.NamedByTokens) :
    FieldTrace.simpleName h.name = h.simpleName := by
  rw [simpleName_of_mem_headers h hh, simpleName_of_notMem htokens.noDots]

/-- A type that is not named by a text without dots itself has that text as its simple name exactly
if its qualified name ends with it. -/
theorem simpleName_eq_iff_endsWith (hh : h ∈ (ofFiles files).headers)
    (htokens : h.NamedByTokens) (hn : '.' ∉ n.toList) (hne : h.name ≠ n) :
    h.simpleName = n ↔ Text.endsWith h.name ("." ++ n) = true := by
  rw [endsWith_dot_iff hn, simpleName_name hh htokens]
  refine ⟨fun hsimple => ⟨?_, hsimple⟩, fun hends => hends.2⟩
  by_contra hdot
  apply hne
  rw [← simpleName_of_notMem hdot, simpleName_name hh htokens, hsimple]

/-- The first type with a simple name is the first whose qualified name ends with it. -/
theorem head?_bySimpleName (htokens : ∀ h ∈ (ofFiles files).headers, h.NamedByTokens)
    (hn : '.' ∉ n.toList) (hnew : (ofFiles files).isType n = false) :
    ((ofFiles files).bySimpleName.getD n []).head? =
      (ofFiles files).types.keys.find? (fun q => Text.endsWith q ("." ++ n)) := by
  have hkeys : (ofFiles files).types.keys = (ofFiles files).headers.map TypeHeader.name := by
    rw [← (wellNamed_ofFiles files).map_values, headers, List.map_map]
    rfl
  have hfilter : (ofFiles files).headers.filter (fun h => h.simpleName = n) =
      (ofFiles files).headers.filter (fun h => Text.endsWith h.name ("." ++ n)) := by
    apply List.filter_congr
    intro h hh
    have hne : h.name ≠ n := by
      rintro rfl
      have hregistered : h.name ∈ (ofFiles files).types.keys :=
        mem_keys_iff_mem_headers.2 ⟨h, hh, rfl⟩
      rw [← Table.contains_iff] at hregistered
      exact Bool.eq_false_iff.1 hnew hregistered
    rw [Bool.eq_iff_iff, decide_eq_true_eq]
    exact simpleName_eq_iff_endsWith hh (htokens h hh) hn hne
  rw [bySimpleName_ofFiles, hkeys, ← List.head?_filter, List.filter_map, hfilter]
  rfl

/-- A text with dots is no simple name. -/
theorem bySimpleName_eq_nil (htokens : ∀ h ∈ (ofFiles files).headers, h.NamedByTokens)
    (hn : '.' ∈ n.toList) : (ofFiles files).bySimpleName.getD n [] = [] := by
  rw [bySimpleName_ofFiles, List.map_eq_nil_iff, List.filter_eq_nil_iff]
  intro h hh hsimple
  rw [← of_decide_eq_true hsimple] at hn
  exact (htokens h hh).noDots hn

/-- The two searches behind the exact name are one. -/
theorem resolve?_eq (htokens : ∀ h ∈ (ofFiles files).headers, h.NamedByTokens) (text : String) :
    (ofFiles files).resolve? text =
      if stripGenerics text ∈ (ofFiles files).types.keys then some (stripGenerics text)
      else (ofFiles files).types.keys.find?
        (fun q => Text.endsWith q ("." ++ stripGenerics text)) := by
  unfold resolve?
  dsimp only
  cases htype : (ofFiles files).isType (stripGenerics text) with
  | true => rw [if_pos rfl, if_pos ((Table.contains_iff _ _).1 htype)]
  | false =>
    have hnew : stripGenerics text ∉ (ofFiles files).types.keys := fun hmem =>
      Bool.eq_false_iff.1 htype ((Table.contains_iff _ _).2 hmem)
    rw [if_neg Bool.false_ne_true, if_neg hnew]
    by_cases hdot : '.' ∈ (stripGenerics text).toList
    · rw [bySimpleName_eq_nil htokens hdot]
      rfl
    · rw [head?_bySimpleName htokens hdot htype]
      split
      next hfound => exact hfound.symm
      next => rfl

/-! ### Names that stand for themselves -/

/-- A qualified name is a simple name, or has a package or a registered type before the dot. -/
theorem name_cases (hh : h ∈ (ofFiles files).headers) :
    h.name = h.simpleName ∨ ∃ parent, parent ≠ "" ∧ h.name = parent ++ "." ++ h.simpleName ∧
      (parent = h.package ∨ ∃ h' ∈ (ofFiles files).headers, h'.name = parent) := by
  obtain ⟨hname, houter⟩ := name_of_mem_headers h hh
  unfold qualifiedName at hname
  dsimp only at hname
  split at hname
  next => exact .inl hname
  next hparent =>
    refine .inr ⟨_, hparent, hname, ?_⟩
    cases ho : h.outer with
    | none => exact .inl rfl
    | some o =>
      by_cases hempty : o = ""
      · rw [hempty]
        exact .inl rfl
      · right
        rw [Option.filter_some, if_pos (by simp [hempty]), Option.getD_some,
          ← mem_keys_iff_mem_headers, ← Table.contains_iff]
        exact houter o ho

theorem name_first (htokens : ∀ h ∈ (ofFiles files).headers, h.NamedByTokens)
    (hh : h ∈ (ofFiles files).headers) : ∀ c ∈ h.name.toList.head?, Text.isBlank c = false := by
  -- by induction on the length: the type around has a shorter name
  induction hlength : h.name.length using Nat.strongRecOn generalizing h with
  | ind k ih =>
    intro c hc
    obtain hname | ⟨parent, hne, hname, hparent⟩ := name_cases hh
    · rw [hname] at hc
      exact ((htokens h hh).simple c (List.mem_of_mem_head? hc)).2
    · have hfirst : h.name.toList.head? = parent.toList.head? := by
        have hcs : parent.toList ≠ [] := by simpa using hne
        rw [hname, String.toList_append, String.toList_append, List.append_assoc,
          List.head?_append_of_ne_nil _ hcs]
      rw [hfirst] at hc
      obtain rfl | ⟨h', hh', rfl⟩ := hparent
      · exact (htokens h hh).package c hc
      · have hshorter : h'.name.length < k := by
          rw [← hlength, hname, String.length_append, String.length_append]
          have hdot : ".".length = 1 := rfl
          omega
        exact ih _ hshorter hh' rfl c hc

theorem name_last (htokens : h.NamedByTokens) (hh : h ∈ (ofFiles files).headers) :
    ∀ c ∈ h.name.toList.getLast?, Text.isBlank c = false := by
  intro c hc
  have hsimple : ∀ c ∈ h.simpleName.toList.getLast?, Text.isBlank c = false :=
    fun c hc => (htokens.simple c (List.mem_of_mem_getLast? hc)).2
  obtain hname | ⟨parent, -, hname, -⟩ := name_cases hh
  · rw [hname] at hc
    exact hsimple c hc
  · rw [hname, String.toList_append, List.getLast?_append] at hc
    cases hlast : h.simpleName.toList.getLast? with
    | some d =>
      rw [hlast] at hc
      exact hsimple c (hlast ▸ hc)
    | none =>
      have hdot : (parent ++ ".").toList.getLast? = some '.' := by simp
      rw [hlast, Option.none_or, hdot] at hc
      cases hc
      decide

/-- The name of a registered type has nothing to strip. -/
theorem stripGenerics_name (htokens : ∀ h ∈ (ofFiles files).headers, h.NamedByTokens)
    (hn : n ∈ (ofFiles files).types.keys) (harguments : '<' ∉ n.toList) : stripGenerics n = n := by
  obtain ⟨h, hh, rfl⟩ := mem_keys_iff_mem_headers.1 hn
  exact stripGenerics_eq_self harguments (name_first htokens hh) (name_last (htokens h hh) hh)

theorem mem_keys_of_resolve? (htokens : ∀ h ∈ (ofFiles files).headers, h.NamedByTokens)
    {text q : String} (hq : (ofFiles files).resolve? text = some q) :
    q ∈ (ofFiles files).types.keys := by
  rw [resolve?_eq htokens] at hq
  split at hq
  next hmem => rwa [← Option.some.inj hq]
  next => exact List.mem_of_find?_eq_some hq

end Registry

/-- Where names are made of tokens, a text names the registered type of that name, else the first in
the order of registration whose name ends with a dot and the text, where the text is cut before its
type arguments and trimmed. So it names no type exactly if no name is that text or ends with it, and
the name of a type that is found names that type. -/
theorem Index.resolveType_exact_then_suffix (files : List SourceFile) (skipped : List String)
    (htokens : ∀ h ∈ (Index.ofFiles files skipped).registry.headers, h.NamedByTokens) :
    let idx := Index.ofFiles files skipped
    let names := idx.registry.types.keys
    (∀ text, let n := Text.trim (Text.beforeFirst '<' text)
      idx.resolveType text =
        (if n ∈ names then some n else names.find? (fun q => Text.endsWith q ("." ++ n))) ∧
      (idx.resolveType text = none ↔ ∀ q ∈ names, q ≠ n ∧ ∀ p, q ≠ p ++ ("." ++ n))) ∧
    ∀ text q, idx.resolveType text = some q →
      q ∈ names ∧ ('<' ∉ q.toList → idx.resolveType q = some q) := by
  have hregistry := (declared_ofFiles files skipped).2.2
  rw [hregistry] at htokens
  dsimp only [resolveType]
  rw [hregistry]
  refine ⟨fun text => ⟨Registry.resolve?_eq htokens text, ?_⟩, fun text q hq => ?_⟩
  · have heq := Registry.resolve?_eq htokens text
    unfold stripGenerics at heq
    rw [heq]
    constructor
    · intro hnone q hq
      split at hnone
      next => cases hnone
      next hnew =>
        refine ⟨fun hqn => hnew (hqn ▸ hq), fun p hp => ?_⟩
        exact List.find?_eq_none.1 hnone q hq (Text.endsWith_iff.2 ⟨p, hp⟩)
    · intro hnames
      rw [if_neg (fun hmem => (hnames _ hmem).1 rfl), List.find?_eq_none]
      intro q hq hends
      obtain ⟨p, hp⟩ := Text.endsWith_iff.1 hends
      exact (hnames q hq).2 p hp
  · have hmem := Registry.mem_keys_of_resolve? htokens hq
    refine ⟨hmem, fun harguments => ?_⟩
    rw [Registry.resolve?_eq htokens, Registry.stripGenerics_name htokens hmem harguments,
      if_pos hmem]

/-! Two packages with types of one simple name, the first of them inside another type. -/

namespace Lids

def nested : SourceFile where
  path := "Box.java"
  bytes := "package a;class Box\x7bclass Lid\x7b\x7d\x7d".toUTF8.data
  tree := .node (.other "program") .none 0 32 [
    .node .packageDeclaration .none 0 10 [.node .identifier .none 8 9 []],
    .node .classDeclaration .none 10 32 [
      .node .identifier .name 16 19 [],
      .node (.other "class_body") .body 19 32 [
        .node .classDeclaration .none 20 31 [
          .node .identifier .name 26 29 [],
          .node (.other "class_body") .body 29 31 []]]]]

def plain : SourceFile where
  path := "Lid.java"
  bytes := "package b;class Lid\x7b\x7d".toUTF8.data
  tree := .node (.other "program") .none 0 21 [
    .node .packageDeclaration .none 0 10 [.node .identifier .none 8 9 []],
    .node .classDeclaration .none 10 21 [
      .node .identifier .name 16 19 [],
      .node (.other "class_body") .body 19 21 []]]

def index : Index := Index.ofFiles [nested, plain] []

end Lids

set_option maxRecDepth 100000 in
/-- The simple name names the type that is registered first, which its full name names too; the other
needs its package. Part of a simple name names nothing. -/
theorem resolveType_exact_then_suffix_lids :
    (∀ h ∈ Lids.index.registry.headers, h.NamedByTokens) ∧
      Lids.index.resolveType " Lid <T>" = some "a.Box.Lid" ∧
      Lids.index.resolveType "a.Box.Lid" = some "a.Box.Lid" ∧
      Lids.index.resolveType "b.Lid" = some "b.Lid" ∧
      Lids.index.resolveType "id" = none := by
  have htokens : ∀ h ∈ Lids.index.registry.headers, h.NamedByTokens := by decide +kernel
  obtain ⟨hresolve, hself⟩ :=
    Index.resolveType_exact_then_suffix [Lids.nested, Lids.plain] [] htokens
  have hnames : Lids.index.registry.types.keys = ["a.Box", "a.Box.Lid", "b.Lid"] := by
    decide +kernel
  have hlid : Lids.index.resolveType " Lid <T>" = some "a.Box.Lid" := by
    rw [Lids.index, (hresolve " Lid <T>").1, ← Lids.index, hnames]
    decide +kernel
  refine ⟨htokens, hlid, (hself _ _ hlid).2 (by decide), ?_, ?_⟩
  · rw [Lids.index, (hresolve "b.Lid").1, ← Lids.index, hnames]
    decide +kernel
  · rw [Lids.index, (hresolve "id").1, ← Lids.index, hnames]
    decide +kernel

end FieldTrace
