import FieldTrace.Proofs.KeyedTables
import FieldTrace.Terminal.Glyph
import Mathlib.Data.List.Basic

/-! # Glyphs replaced one by one

A text is made plain by one replacement after the other, each over the whole outcome of those
before. No replacement brings a glyph of the table in, so none has anything to do with the outcome
of another: together they put in for each character what the table has for it
(`foldl_replaceGlyph_eq_flatMap`). -/

namespace FieldTrace.Terminal

/-- What stands for a character: the replacement that the table has for it, or the character. -/
def substitute (table : List (Char × String)) (c : Char) : List Char :=
  (((Table.mk table).get? c).map String.toList).getD [c]

/-- No glyph is listed twice, and none is in a replacement. -/
def Independent (table : List (Char × String)) : Prop :=
  (Table.mk table).Keyed (fun _ r => ∀ c ∈ r.toList, c ∉ table.map Prod.fst)

variable {table : List (Char × String)}

/-! ### Characters -/

theorem substitute_cons (g : Char × String) (c : Char) :
    substitute (g :: table) c = if g.1 = c then g.2.toList else substitute table c := by
  unfold substitute Table.get?
  rw [Table.getFrom]
  by_cases h : g.1 = c
  · rw [if_pos h, if_pos h]
    rfl
  · rw [if_neg h, if_neg h]

theorem substitute_of_notMem {c : Char} (h : c ∉ table.map Prod.fst) :
    substitute table c = [c] := by
  have hnone : (Table.mk table).get? c = none := by
    rw [← Option.not_isSome_iff_eq_none]
    exact mt ((Table.mk table).contains_iff c).1 h
  rw [substitute, hnone]
  rfl

theorem flatMap_substitute_of_notMem {cs : List Char} (h : ∀ c ∈ cs, c ∉ table.map Prod.fst) :
    cs.flatMap (substitute table) = cs := by
  rw [List.flatMap_congr (fun c hc => substitute_of_notMem (h c hc)), List.flatMap_singleton']

/-- What stands for a character has no glyphs in it. -/
theorem Independent.notMem_substitute (h : Independent table) {c d : Char}
    (hd : d ∈ substitute table c) : d ∉ table.map Prod.fst := by
  unfold substitute at hd
  cases hget : (Table.mk table).get? c with
  | none =>
    rw [hget] at hd
    obtain rfl := List.mem_singleton.1 hd
    intro hmem
    have hsome := ((Table.mk table).contains_iff d).2 hmem
    rw [Table.contains, hget] at hsome
    cases hsome
  | some r =>
    rw [hget] at hd
    exact Table.Keyed.get? h hget d hd

/-! ### Tables in another order -/

theorem Independent.of_perm {other : List (Char × String)} (h : Independent table)
    (hperm : other.Perm table) : Independent other where
  nodup := (hperm.map Prod.fst).nodup_iff.2 h.nodup
  entry g hg c hc hmem :=
    h.entry g (hperm.mem_iff.1 hg) c hc ((hperm.map Prod.fst).mem_iff.1 hmem)

theorem Independent.substitute_eq_of_perm {other : List (Char × String)} (h : Independent table)
    (hperm : other.Perm table) : substitute other = substitute table := by
  funext c
  have hget := (h.mono (fun _ _ _ => trivial)).get?_eq_of_perm
    ((h.of_perm hperm).mono (fun _ _ _ => trivial)) hperm.symm c
  rw [substitute, ← hget, substitute]

/-! ### One replacement after the other -/

/-- Replacements that bring none of some characters in, all glyphs of the table among them, amount
to what the table has for each character. -/
theorem foldl_replaceGlyph_eq_flatMap {keys : List Char} (hkeys : table.map Prod.fst ⊆ keys)
    (hinert : ∀ g ∈ table, ∀ c ∈ g.2.toList, c ∉ keys) (cs : List Char) :
    table.foldl replaceGlyph cs = cs.flatMap (substitute table) := by
  induction table generalizing cs with
  | nil => exact (flatMap_substitute_of_notMem (fun _ _ => List.not_mem_nil)).symm
  | cons g table ih =>
    have hrest : table.map Prod.fst ⊆ keys := fun c hc => hkeys (List.mem_cons_of_mem _ hc)
    rw [List.foldl_cons, ih hrest (fun g' hg' => hinert g' (List.mem_cons_of_mem _ hg')),
      replaceGlyph, List.flatMap_assoc]
    refine List.flatMap_congr (fun c _ => ?_)
    rw [substitute_cons]
    by_cases hc : c = g.1
    · -- the later replacements leave this one as it is
      rw [if_pos hc, if_pos hc.symm]
      exact flatMap_substitute_of_notMem
        (fun d hd hmem => hinert g List.mem_cons_self d hd (hrest hmem))
    · rw [if_neg hc, if_neg (Ne.symm hc), List.flatMap_singleton]

theorem Independent.foldl_replaceGlyph (h : Independent table) (cs : List Char) :
    table.foldl replaceGlyph cs = cs.flatMap (substitute table) :=
  foldl_replaceGlyph_eq_flatMap (List.Subset.refl _) (fun g hg => h.entry g hg) cs

/-! ### The glyphs -/

theorem glyphs_independent : Independent glyphs where
  nodup := by decide
  entry g hg c hc := by
    have hall : glyphs.all (fun g => g.2.toList.all (fun c => !(glyphs.map Prod.fst).contains c)) =
        true := by decide
    have hnot := List.all_eq_true.1 (List.all_eq_true.1 hall g hg) c hc
    simpa using hnot

theorem toList_sanitize (s : String) :
    (sanitize s).toList = s.toList.flatMap (substitute glyphs) := by
  rw [sanitize, String.toList_ofList, glyphs_independent.foldl_replaceGlyph]

theorem notMem_toList_sanitize (s : String) {c : Char} (hc : c ∈ (sanitize s).toList) :
    c ∉ glyphs.map Prod.fst := by
  rw [toList_sanitize] at hc
  obtain ⟨d, -, hc⟩ := List.mem_flatMap.1 hc
  exact glyphs_independent.notMem_substitute hc

/-- The texts without glyphs are those that are left as they are. -/
theorem sanitize_eq_self_iff {s : String} :
    sanitize s = s ↔ ∀ c ∈ s.toList, c ∉ glyphs.map Prod.fst := by
  constructor
  · intro hself c hc
    rw [← hself] at hc
    exact notMem_toList_sanitize s hc
  · intro hnone
    rw [← String.toList_inj, toList_sanitize]
    exact flatMap_substitute_of_notMem hnone

theorem sanitize_append (s t : String) : sanitize (s ++ t) = sanitize s ++ sanitize t := by
  rw [← String.toList_inj, toList_sanitize, String.toList_append, List.flatMap_append,
    String.toList_append, toList_sanitize, toList_sanitize]

theorem sanitize_sanitize (s : String) : sanitize (sanitize s) = sanitize s :=
  sanitize_eq_self_iff.2 (fun _ hc => notMem_toList_sanitize s hc)

theorem forall_glyphs_notMem_iff {s : String} :
    (∀ g ∈ glyphs, g.1 ∉ s.toList) ↔ ∀ c ∈ s.toList, c ∉ glyphs.map Prod.fst := by
  constructor
  · intro h c hc hmem
    obtain ⟨g, hg, rfl⟩ := List.mem_map.1 hmem
    exact h g hg hc
  · intro h g hg hmem
    exact h g.1 hmem (List.mem_map_of_mem hg)

/-- For all texts: the replacements, made one after the other in whatever order, put in for each
character what the table has for it. So it makes no difference whether texts are joined before or
after, a second time changes nothing, and no glyph is left. Joining and repeating make no difference
in any encoding, and glyphs are left exactly where the encoding can show them. -/
theorem sanitize_substitutes (s t : String) :
    sanitize s = String.ofList (s.toList.flatMap (substitute glyphs)) ∧
    (∀ table : List (Char × String), table.Perm glyphs →
      String.ofList (table.foldl replaceGlyph s.toList) = sanitize s) ∧
    sanitize (s ++ t) = sanitize s ++ sanitize t ∧
    sanitize (sanitize s) = sanitize s ∧
    (∀ g ∈ glyphs, g.1 ∉ (sanitize s).toList) ∧
    ∀ encoding,
      plain encoding (s ++ t) = plain encoding s ++ plain encoding t ∧
      plain encoding (plain encoding s) = plain encoding s ∧
      (plain encoding s = sanitize s ↔
        isUtf8 encoding = false ∨ ∀ g ∈ glyphs, g.1 ∉ s.toList) := by
  refine ⟨?_, fun table hperm => ?_, sanitize_append s t, sanitize_sanitize s,
    forall_glyphs_notMem_iff.2 (fun _ hc => notMem_toList_sanitize s hc), fun encoding => ?_⟩
  · rw [← String.toList_inj, toList_sanitize, String.toList_ofList]
  · rw [← String.toList_inj, toList_sanitize, String.toList_ofList,
      (glyphs_independent.of_perm hperm).foldl_replaceGlyph,
      glyphs_independent.substitute_eq_of_perm hperm]
  · cases hutf8 : isUtf8 encoding with
    | false => simp [plain, hutf8, sanitize_append, sanitize_sanitize]
    | true =>
      have hplain : ∀ u, plain encoding u = u := fun u => by rw [plain, hutf8, if_pos rfl]
      simp only [hplain, Bool.true_eq_false, false_or, true_and]
      rw [forall_glyphs_notMem_iff, ← sanitize_eq_self_iff, eq_comm]

/-- An arrow and an ellipsis, replaced in the order of the table and in the opposite order, on a
terminal that cannot show them and on one that can. -/
theorem sanitize_substitutes_arrow :
    sanitize "a → b…" = "a -> b..." ∧ glyphs.reverse.Perm glyphs ∧
      String.ofList (glyphs.reverse.foldl replaceGlyph "a → b…".toList) = sanitize "a → b…" ∧
      ('→', "->") ∈ glyphs ∧ '→' ∉ (sanitize "a → b…").toList ∧
      plain "cp1252" "a → b…" = sanitize "a → b…" ∧ plain "utf-8" "a → b…" ≠ sanitize "a → b…" := by
  obtain ⟨heq, horder, -, -, hnone, hplain⟩ := sanitize_substitutes "a → b…" ""
  have hperm : glyphs.reverse.Perm glyphs := List.reverse_perm glyphs
  have harrow : ('→', "->") ∈ glyphs := by decide
  refine ⟨heq, hperm, horder _ hperm, harrow, hnone _ harrow, ?_, ?_⟩
  · exact (hplain "cp1252").2.2.2 (.inl (by decide))
  · intro hsame
    have hglyphs := (hplain "utf-8").2.2.1 hsame
    have hshown : isUtf8 "utf-8" = true := by decide
    rw [hshown] at hglyphs
    exact hglyphs.elim Bool.noConfusion (fun hglyphs => hglyphs _ harrow (by decide))

end FieldTrace.Terminal
