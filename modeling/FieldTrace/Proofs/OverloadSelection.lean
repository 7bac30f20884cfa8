import FieldTrace.Index.Lookup

/-! # The overload that a call selects

Three searches are made one after the other: for the first candidate of the right arity whose
parameter types agree with the known argument types, for the first one of the right arity, and for
the first one of variable arity that takes the arguments (`selectOverload_eq_searches`). A call looks
for its method on one type after the other, and stops at the first type that has a method to take
the arguments. -/

namespace FieldTrace

namespace MethodDecl

/-- Can the method be called with a number of arguments? -/
def takes (m : MethodDecl) (count : Nat) : Bool :=
  m.arity = count || m.isVarargs && decide (m.arity ≤ count + 1)

theorem takes_iff {m : MethodDecl} {count : Nat} :
    m.takes count = true ↔ m.arity = count ∨ m.isVarargs = true ∧ m.arity - 1 ≤ count := by
  rw [takes, Bool.or_eq_true, Bool.and_eq_true, decide_eq_true_eq, decide_eq_true_eq,
    Nat.sub_le_iff_le_add]

/-- Each known argument type is the type of its parameter. -/
def Agrees (m : MethodDecl) (args : List (Option TypeRef)) : Prop :=
  ∀ (i : Nat) (p : String × TypeRef) (t : TypeRef),
    m.params[i]? = some p → args[i]? = some (some t) → t.name = p.2.name

end MethodDecl

variable {methods : List MethodDecl} {args : List (Option TypeRef)} {m : MethodDecl}

theorem acceptsTypes_iff : acceptsTypes args m = true ↔ m.Agrees args := by
  unfold acceptsTypes
  rw [List.all_eq_true]
  constructor
  · intro h i p t hp ht
    have hmem : (p, some t) ∈ m.params.zip args :=
      List.mem_of_getElem? (List.getElem?_zip_eq_some.2 ⟨hp, ht⟩)
    exact of_decide_eq_true (h _ hmem)
  · rintro h ⟨p, arg⟩ hmem
    obtain ⟨i, hi⟩ := List.mem_iff_getElem?.1 hmem
    obtain ⟨hp, harg⟩ := List.getElem?_zip_eq_some.1 hi
    cases arg with
    | none => rfl
    | some t => exact decide_eq_true (h i p t hp harg)

/-! ### Three searches -/

/-- Has the candidate the right arity, and parameter types that agree? -/
def fits (args : List (Option TypeRef)) (m : MethodDecl) : Bool :=
  m.arity = args.length && acceptsTypes args m

theorem fits_iff : fits args m = true ↔ m.arity = args.length ∧ m.Agrees args := by
  rw [fits, Bool.and_eq_true, decide_eq_true_eq, acceptsTypes_iff]

theorem selectOverload_eq_searches (methods : List MethodDecl) (args : List (Option TypeRef)) :
    selectOverload methods args =
      (methods.find? (fits args)).or ((methods.find? (fun m => m.arity = args.length)).or
        (methods.find? (fun m => m.isVarargs && decide (m.arity ≤ args.length + 1)))) := by
  have hfits : methods.find? (fits args) =
      (methods.filter (fun m => m.arity = args.length)).find? (acceptsTypes args) := by
    rw [List.find?_filter]
    congr 1
    funext m
    rw [fits, Bool.decide_and, Bool.decide_eq_true, Bool.decide_eq_true]
  have hexact : methods.find? (fun m => m.arity = args.length) =
      (methods.filter (fun m => m.arity = args.length)).head? := List.head?_filter.symm
  rw [hfits, hexact]
  unfold selectOverload
  split
  next hnone => rw [hnone]; rfl
  next m hone =>
    rw [hone, List.find?_cons]
    cases acceptsTypes args m <;> rfl
  next m rest _ hseveral =>
    rw [hseveral, List.head?_cons, Option.some_or]

theorem mem_of_selectOverload (h : selectOverload methods args = some m) : m ∈ methods := by
  rw [selectOverload_eq_searches, Option.or_eq_some_iff, Option.or_eq_some_iff] at h
  obtain h | ⟨-, h | ⟨-, h⟩⟩ := h
  all_goals exact List.mem_of_find?_eq_some h

/-- A method of another arity is selected only if none has the right one. -/
theorem arity_of_selectOverload (h : selectOverload methods args = some m) :
    m.arity = args.length ∨
      m.isVarargs = true ∧ m.arity - 1 ≤ args.length ∧ ∀ n ∈ methods, n.arity ≠ args.length := by
  rw [selectOverload_eq_searches, Option.or_eq_some_iff, Option.or_eq_some_iff] at h
  obtain h | ⟨-, h | ⟨hnone, h⟩⟩ := h
  · exact .inl (fits_iff.1 (List.find?_some h)).1
  · have hexact := List.find?_some h
    exact .inl (of_decide_eq_true hexact)
  · have htakes := List.find?_some h
    obtain ⟨hvarargs, harity⟩ := Bool.and_eq_true_iff.1 htakes
    refine .inr ⟨hvarargs, Nat.sub_le_iff_le_add.2 (of_decide_eq_true harity), fun n hn hexact => ?_⟩
    exact List.find?_eq_none.1 hnone n hn (decide_eq_true hexact)

theorem takes_of_selectOverload (h : selectOverload methods args = some m) :
    m.takes args.length = true :=
  MethodDecl.takes_iff.2 ((arity_of_selectOverload h).imp_right (fun hm => ⟨hm.1, hm.2.1⟩))

/-- An overload is selected if and only if some method takes as many arguments. -/
theorem selectOverload_eq_none_iff :
    selectOverload methods args = none ↔ ∀ m ∈ methods, m.takes args.length = false := by
  constructor
  · intro h m hm
    rw [selectOverload_eq_searches, Option.or_eq_none_iff, Option.or_eq_none_iff] at h
    obtain ⟨-, hexact, hvarargs⟩ := h
    rw [MethodDecl.takes, Bool.or_eq_false_iff]
    exact ⟨Bool.eq_false_iff.2 (List.find?_eq_none.1 hexact m hm),
      Bool.eq_false_iff.2 (List.find?_eq_none.1 hvarargs m hm)⟩
  · intro h
    cases hselect : selectOverload methods args with
    | none => rfl
    | some m =>
      have htakes := takes_of_selectOverload hselect
      rw [h m (mem_of_selectOverload hselect)] at htakes
      cases htakes

/-- If some candidate fits, the first one that fits is selected. -/
theorem selectOverload_of_fits {n : MethodDecl} (hn : n ∈ methods) (hfits : fits args n = true) :
    ∃ before m after, methods = before ++ m :: after ∧ selectOverload methods args = some m ∧
      fits args m = true ∧ ∀ k ∈ before, fits args k = false := by
  cases hfound : methods.find? (fits args) with
  | none => exact absurd hfits (List.find?_eq_none.1 hfound n hn)
  | some m =>
    obtain ⟨hm, before, after, hmethods, hbefore⟩ := List.find?_eq_some_iff_append.1 hfound
    refine ⟨before, m, after, hmethods, ?_, hm, fun k hk => by simpa using hbefore k hk⟩
    rw [selectOverload_eq_searches, hfound, Option.some_or]

/-! ### Along the lineage of a type -/

namespace TypeTable

variable {types : TypeTable} {type name : String}

/-- The type is declared and has a method of the name that takes so many arguments. -/
def Offers (types : TypeTable) (type name : String) (count : Nat) : Prop :=
  ∃ d, types.get? type = some d ∧ ∃ m ∈ d.methods, m.name = name ∧ m.takes count = true

/-- The method that a call selects on one type. -/
def selectOn (types : TypeTable) (type name : String) (args : List (Option TypeRef)) :
    Option MethodDecl :=
  (types.get? type).bind (fun d => selectOverload (d.methods.filter (fun m => m.name = name)) args)

theorem selectOn_isSome_iff :
    (types.selectOn type name args).isSome = true ↔ types.Offers type name args.length := by
  unfold selectOn Offers
  cases types.get? type with
  | none => simp
  | some d =>
    have hnone := @selectOverload_eq_none_iff (d.methods.filter (fun m => m.name = name)) args
    rw [Option.bind_some, Option.isSome_iff_ne_none, ne_eq, hnone]
    simp

theorem lookupMethod_eq_findSome? :
    types.lookupMethod type name args =
      (types.lineage type).findSome? (fun t => types.selectOn t name args) := by
  unfold lookupMethod declarationsAlong
  induction types.lineage type with
  | nil => rfl
  | cons t ts ih =>
    rw [List.findSome?_cons, selectOn]
    cases ht : types.get? t with
    | none => rw [List.filterMap_cons_none ht, ih]; rfl
    | some d => rw [List.filterMap_cons_some ht, List.findSome?_cons, ih]; rfl

/-- A method is found exactly if some type of the lineage offers one. -/
theorem lookupMethod_isSome_iff :
    (types.lookupMethod type name args).isSome = true ↔
      ∃ t ∈ types.lineage type, types.Offers t name args.length := by
  rw [lookupMethod_eq_findSome?, List.findSome?_isSome_iff]
  simp only [selectOn_isSome_iff]

/-- What is found is what the nearest type that offers a method selects. -/
theorem lookupMethod_eq_some_iff :
    types.lookupMethod type name args = some m ↔
      ∃ before t after d, types.lineage type = before ++ t :: after ∧
        (∀ t' ∈ before, ¬ types.Offers t' name args.length) ∧ types.get? t = some d ∧
        selectOverload (d.methods.filter (fun m => m.name = name)) args = some m := by
  have hnone : ∀ t, types.selectOn t name args = none ↔ ¬ types.Offers t name args.length := by
    intro t
    rw [← selectOn_isSome_iff, Bool.not_eq_true, Option.isSome_eq_false_iff,
      Option.isNone_iff_eq_none]
  rw [lookupMethod_eq_findSome?, List.findSome?_eq_some_iff]
  simp only [hnone]
  constructor
  · rintro ⟨before, t, after, hlineage, hselect, hbefore⟩
    obtain ⟨d, hd, hm⟩ := Option.bind_eq_some_iff.1 hselect
    exact ⟨before, t, after, d, hlineage, hbefore, hd, hm⟩
  · rintro ⟨before, t, after, d, hlineage, hbefore, hd, hm⟩
    exact ⟨before, t, after, hlineage, Option.bind_eq_some_iff.2 ⟨d, hd, hm⟩, hbefore⟩

end TypeTable

/-- For whatever candidates and argument types: no overload is selected exactly if no candidate has
the right arity and none of variable arity takes the arguments. One of another arity is selected only
if none has the right arity. If some candidate of the right arity agrees with all known argument
types, the first such one is selected. So along the lineage of a type a method is found exactly if
some type has one to take the arguments, and it is selected on the nearest such type. -/
theorem overload_selection_complete (methods : List MethodDecl) (args : List (Option TypeRef)) :
    (selectOverload methods args = none ↔
      (∀ m ∈ methods, m.arity ≠ args.length) ∧
        ∀ m ∈ methods, m.isVarargs = true → ¬ m.arity - 1 ≤ args.length) ∧
    (∀ m, selectOverload methods args = some m → m ∈ methods ∧
      (m.arity = args.length ∨ m.isVarargs = true ∧ m.arity - 1 ≤ args.length ∧
        ∀ n ∈ methods, n.arity ≠ args.length)) ∧
    ((∃ n ∈ methods, n.arity = args.length ∧ n.Agrees args) →
      ∃ before m after, methods = before ++ m :: after ∧ selectOverload methods args = some m ∧
        (m.arity = args.length ∧ m.Agrees args) ∧
        ∀ k ∈ before, ¬ (k.arity = args.length ∧ k.Agrees args)) ∧
    ∀ (types : TypeTable) (type name : String),
      ((types.lookupMethod type name args).isSome = true ↔
        ∃ t ∈ types.lineage type, types.Offers t name args.length) ∧
      ∀ m, types.lookupMethod type name args = some m ↔
        ∃ before t after d, types.lineage type = before ++ t :: after ∧
          (∀ t' ∈ before, ¬ types.Offers t' name args.length) ∧ types.get? t = some d ∧
          selectOverload (d.methods.filter (fun m => m.name = name)) args = some m := by
  refine ⟨?_, fun m hm => ⟨mem_of_selectOverload hm, arity_of_selectOverload hm⟩, ?_,
    fun types type name => ⟨TypeTable.lookupMethod_isSome_iff,
      fun m => TypeTable.lookupMethod_eq_some_iff⟩⟩
  · have htakes : ∀ m : MethodDecl, m.takes args.length = false ↔
        m.arity ≠ args.length ∧ (m.isVarargs = true → ¬ m.arity - 1 ≤ args.length) := by
      intro m
      rw [Bool.eq_false_iff, ne_eq, MethodDecl.takes_iff, not_or, not_and]
    rw [selectOverload_eq_none_iff]
    simp only [htakes]
    exact ⟨fun h => ⟨fun m hm => (h m hm).1, fun m hm => (h m hm).2⟩,
      fun h m hm => ⟨h.1 m hm, h.2 m hm⟩⟩
  · rintro ⟨n, hn, hfits⟩
    obtain ⟨before, m, after, hmethods, hselect, hm, hbefore⟩ :=
      selectOverload_of_fits hn (fits_iff.2 hfits)
    refine ⟨before, m, after, hmethods, hselect, fits_iff.1 hm, fun k hk hfits => ?_⟩
    exact Bool.eq_false_iff.1 (hbefore k hk) (fits_iff.2 hfits)

/-! A counter is a till, and a till is a shop. All have methods of one name. -/

namespace Tills

def put (owner : String) (params : List String) (isVarargs : Bool) : MethodDecl where
  id := ⟨owner, "put", params⟩
  returnType := none
  params := params.map (fun p => ("coin", { name := p }))
  annotations := []
  ownerAnnotations := []
  location := ⟨owner ++ ".java", 1⟩
  isVarargs := isVarargs

def declared (name : String) (supertypes : List String) (methods : List MethodDecl) : TypeDecl where
  name := name
  simpleName := name
  kind := .classType
  file := name ++ ".java"
  line := 1
  package := ""
  outer := none
  supertypes := supertypes
  methods := methods

def ofTill : List MethodDecl := [put "Till" ["int"] false, put "Till" ["String"] false]

def types : TypeTable := .ofList [
  ("Shop", declared "Shop" [] [put "Shop" ["String"] true]),
  ("Till", declared "Till" ["Shop"] ofTill),
  ("Counter", declared "Counter" ["Till"] [put "Counter" ["int", "int"] false])]

end Tills

/-- The second method of the till fits a text. A call with a text on the counter selects it there,
since the counter has only a method for two arguments. -/
theorem overload_selection_complete_tills :
    (∃ n ∈ Tills.ofTill, n.arity = 1 ∧ n.Agrees [some { name := "String" }]) ∧
      (∃ m, selectOverload Tills.ofTill [some { name := "String" }] = some m ∧
        m.Agrees [some { name := "String" }]) ∧
      Tills.types.lookupMethod "Counter" "put" [some { name := "String" }] =
        some (Tills.put "Till" ["String"] false) := by
  obtain ⟨-, -, hfirst, hlookup⟩ :=
    overload_selection_complete Tills.ofTill [some { name := "String" }]
  have hfits : ∃ n ∈ Tills.ofTill, n.arity = 1 ∧ n.Agrees [some { name := "String" }] :=
    ⟨Tills.put "Till" ["String"] false, by decide, rfl, acceptsTypes_iff.1 (by decide)⟩
  obtain ⟨-, m, -, -, hselect, hm, -⟩ := hfirst hfits
  refine ⟨hfits, ⟨m, hselect, hm.2⟩, ((hlookup Tills.types "Counter" "put").2 _).2
    ⟨["Counter"], "Till", ["Shop"], Tills.declared "Till" ["Shop"] Tills.ofTill, by decide +kernel,
      fun t ht => ?_, rfl, by decide +kernel⟩⟩
  rw [List.mem_singleton.1 ht, ← TypeTable.selectOn_isSome_iff]
  decide +kernel

end FieldTrace
