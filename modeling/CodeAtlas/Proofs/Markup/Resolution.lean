/-
  File:      CodeAtlas/Proofs/Markup/Resolution.lean
  Subject:   What a name refers to, and that asking before makes no difference.

  A name is read as a package and a type at its last dot first, and as a simple name
  if no dot gives a type. Here the same is said without an order of search:

  * `Linker.Qualifies`: the name is that of a package, a dot, and that of a type of it.
  * `Linker.searchOrder`: where a simple name is looked up, repetitions and all.
  * `Linker.Refers`: what a name refers to: the type of the longest package that has
    one, or else the type of the first package in the search order that has one.
  * `Resolver.Faithful`: every answer is the one that would be given again. Asking
    keeps it.
  * `Resolver.resolve_eq_iff_refers`: whatever was asked before, the answer is what the
    name refers to.
-/
import CodeAtlas.Markup.Resolver
import CodeAtlas.Proofs.Pairs

namespace CodeAtlas.Markup

/-! ## 1. The dots of a name -/

/-- A name is cut at each of its dots. -/
theorem mem_dotCuts {name before after : Text} :
    (before, after) ∈ dotCuts name ↔ name = before ++ '.' :: after := by
  induction name generalizing before with
  | nil => simp [dotCuts]
  | cons c rest ih =>
    -- the cuts behind the first character
    have hinner : (before, after) ∈ (dotCuts rest).map (fun cut => (c :: cut.1, cut.2)) ↔
        ∃ start, before = c :: start ∧ rest = start ++ '.' :: after := by
      rw [List.mem_map]
      constructor
      · rintro ⟨⟨start, later⟩, hmem, e⟩
        obtain ⟨rfl, rfl⟩ := Prod.mk.inj e
        exact ⟨start, rfl, ih.mp hmem⟩
      · rintro ⟨start, rfl, e⟩
        exact ⟨(start, after), ih.mpr e, rfl⟩
    have hcons : c :: rest = before ++ '.' :: after ↔
        (before = [] ∧ c = '.' ∧ rest = after) ∨
          ∃ start, before = c :: start ∧ rest = start ++ '.' :: after := by
      cases before with
      | nil => simp
      | cons d start =>
        rw [List.cons_append, List.cons.injEq]
        constructor
        · rintro ⟨rfl, e⟩
          exact Or.inr ⟨start, rfl, e⟩
        · rintro (⟨e, -⟩ | ⟨start', e, hrest⟩)
          · exact absurd e (List.cons_ne_nil d start)
          · obtain ⟨rfl, rfl⟩ := List.cons.inj e
            exact ⟨rfl, hrest⟩
    rw [hcons, ← hinner, dotCuts]
    by_cases hc : c = '.'
    · simp [hc, eq_comm]
    · simp [hc]

/-- Further right there is more before the cut. -/
theorem pairwise_dotCuts (name : Text) :
    (dotCuts name).Pairwise fun cut other => cut.1.length < other.1.length := by
  induction name with
  | nil => exact List.Pairwise.nil
  | cons c rest ih =>
    have hinner : ((dotCuts rest).map fun cut => (c :: cut.1, cut.2)).Pairwise
        fun cut other => cut.1.length < other.1.length :=
      List.pairwise_map.mpr (ih.imp Nat.succ_lt_succ)
    unfold dotCuts
    split
    · refine List.pairwise_cons.mpr ⟨fun cut hcut => ?_, hinner⟩
      obtain ⟨inner, -, rfl⟩ := List.mem_map.mp hcut
      exact Nat.succ_pos _
    · exact hinner

namespace Linker

variable {linker : Linker} {name : Text}

/-! ## 2. Qualified names -/

/-- The name is the name of a package, a dot, and the name of a type of the package. -/
structure Qualifies (linker : Linker) (name : Text) (target : Target) : Prop where
  package_ne : target.package ≠ []
  type : ∃ type, name = target.package ++ '.' :: type ∧
    linker.table.find? target.package type = some target.declaration

theorem target?_eq_some {package : Text} {target : Target} :
    linker.target? package name = some target ↔
      package = target.package ∧ linker.table.find? package name = some target.declaration := by
  unfold target?
  rw [Option.map_eq_some_iff]
  constructor
  · rintro ⟨declaration, h, rfl⟩
    exact ⟨rfl, h⟩
  · rintro ⟨rfl, h⟩
    exact ⟨target.declaration, h, rfl⟩

/-- What a name is read as when it is cut at one of its dots. -/
def cutTarget? (linker : Linker) (cut : Text × Text) : Option Target :=
  if cut.1.isEmpty then none else linker.target? cut.1 cut.2

theorem qualified?_eq (linker : Linker) (name : Text) :
    linker.qualified? name = (dotCuts name).reverse.findSome? linker.cutTarget? := rfl

theorem qualifies_iff {target : Target} :
    linker.Qualifies name target ↔ ∃ cut ∈ dotCuts name, linker.cutTarget? cut = some target := by
  constructor
  · rintro ⟨hne, type, e, h⟩
    refine ⟨(target.package, type), mem_dotCuts.mpr e, ?_⟩
    rw [cutTarget?, if_neg (mt List.isEmpty_iff.mp hne)]
    exact target?_eq_some.mpr ⟨rfl, h⟩
  · rintro ⟨⟨package, type⟩, hmem, h⟩
    unfold cutTarget? at h
    split_ifs at h with hempty
    obtain ⟨rfl, hfind⟩ := target?_eq_some.mp h
    exact ⟨mt List.isEmpty_iff.mpr hempty, type, mem_dotCuts.mp hmem, hfind⟩

theorem length_package {cut : Text × Text} {target : Target}
    (h : linker.cutTarget? cut = some target) : target.package.length = cut.1.length := by
  unfold cutTarget? at h
  split_ifs at h
  rw [(target?_eq_some.mp h).1]

theorem qualified?_eq_none :
    linker.qualified? name = none ↔ ∀ target, ¬ linker.Qualifies name target := by
  rw [qualified?_eq, List.findSome?_eq_none_iff]
  simp only [List.mem_reverse, qualifies_iff, not_exists, not_and]
  constructor
  · intro h target cut hmem he
    cases (h cut hmem).symm.trans he
  · intro h cut hmem
    exact Option.eq_none_iff_forall_ne_some.mpr fun target => h target cut hmem

/-- **A qualified name refers to the type of the longest package that has one.** -/
theorem qualified?_eq_some {target : Target} (h : linker.qualified? name = some target) :
    linker.Qualifies name target ∧
      ∀ other, linker.Qualifies name other → other.package.length ≤ target.package.length := by
  rw [qualified?_eq] at h
  obtain ⟨passed, cut, later, hcuts, hcut, hpassed⟩ := List.findSome?_eq_some_iff.mp h
  have hmem (other : Text × Text) : other ∈ dotCuts name ↔ other ∈ passed ++ cut :: later := by
    rw [← hcuts, List.mem_reverse]
  refine ⟨qualifies_iff.mpr ⟨cut, (hmem cut).mpr (by simp), hcut⟩, fun other hother => ?_⟩
  obtain ⟨otherCut, hotherMem, hotherCut⟩ := qualifies_iff.mp hother
  rw [length_package hcut, length_package hotherCut]
  have hsorted := List.pairwise_reverse.mpr (pairwise_dotCuts name)
  rw [hcuts] at hsorted
  -- the cuts that were passed over give nothing, and those behind are shorter
  rcases List.mem_append.mp ((hmem otherCut).mp hotherMem) with hm | hm
  · cases (hpassed otherCut hm).symm.trans hotherCut
  · rcases List.mem_cons.mp hm with rfl | hm
    · exact Nat.le_refl _
    · exact Nat.le_of_lt
        (List.rel_of_pairwise_cons (List.pairwise_append.mp hsorted).2.1 hm)

/-! ## 3. Simple names -/

/-- Where a simple name is looked up: the packages it is imported from, the file's own package,
and the packages of all imports. -/
def searchOrder (linker : Linker) (name : Text) : List Text :=
  (linker.source.imports.filter (·.className? == some name)).map Import.package ++
    linker.source.package :: linker.source.imports.map Import.package

/-- Texts without an answer may be left out. -/
theorem findSome?_without {α : Type} {f : Text → Option α} {first : Text}
    (hfirst : f first = none) (texts : List Text) :
    (texts.filter fun text => !text == first).findSome? f = texts.findSome? f := by
  induction texts with
  | nil => rfl
  | cons text rest ih =>
    by_cases h : text = first
    · rw [List.filter_cons_of_neg (by simp [h]), List.findSome?_cons, h, hfirst]
      exact ih
    · rw [List.filter_cons_of_pos (by simp [h]), List.findSome?_cons, List.findSome?_cons, ih]

/-- The first answer in a list is the first in the list without its repetitions. -/
theorem findSome?_eraseDups {α : Type} (f : Text → Option α) (texts : List Text) :
    texts.eraseDups.findSome? f = texts.findSome? f := by
  induction hn : texts.length using Nat.strongRecOn generalizing texts with
  | ind n ih =>
    subst hn
    cases texts with
    | nil => rfl
    | cons first rest =>
      have hlength : (rest.filter fun text => !text == first).length < (first :: rest).length :=
        Nat.lt_succ_of_le (List.length_filter_le _ _)
      rw [List.eraseDups_cons, List.findSome?_cons, List.findSome?_cons, ih _ hlength _ rfl]
      cases hfirst : f first with
      | some answer => rfl
      | none => exact findSome?_without hfirst rest

theorem simple?_eq (linker : Linker) (name : Text) :
    linker.simple? name = (linker.searchOrder name).findSome? (linker.target? · name) := by
  unfold simple? candidates scope searchOrder
  rw [List.findSome?_append, List.findSome?_append, findSome?_eraseDups]

theorem resolve?_eq (linker : Linker) (name : Text) :
    linker.resolve? name = (linker.qualified? name).or
      ((linker.searchOrder name).findSome? (linker.target? · name)) := by
  unfold resolve?
  rw [Option.orElse_eq_orElse, Option.orElse_eq_or, simple?_eq]

/-! ## 4. What names refer to -/

/-- What a name refers to. -/
inductive Refers (linker : Linker) (name : Text) : Option Target → Prop where
  /-- The longest package counts. -/
  | qualified {target : Target} (h : linker.Qualifies name target)
      (longest : ∀ other, linker.Qualifies name other →
        other.package.length ≤ target.package.length) : Refers linker name (some target)
  /-- The first package in the search order counts. -/
  | simple {before after : List Text} {package : Text} {declaration : Declaration}
      (h : ∀ target, ¬ linker.Qualifies name target)
      (order : linker.searchOrder name = before ++ package :: after)
      (passed : ∀ other ∈ before, linker.table.find? other name = none)
      (found : linker.table.find? package name = some declaration) :
      Refers linker name (some ⟨package, declaration⟩)
  | unknown (h : ∀ target, ¬ linker.Qualifies name target)
      (nowhere : ∀ package ∈ linker.searchOrder name, linker.table.find? package name = none) :
      Refers linker name none

theorem target?_eq_none {package : Text} :
    linker.target? package name = none ↔ linker.table.find? package name = none :=
  Option.map_eq_none_iff

theorem refers_resolve? (linker : Linker) (name : Text) :
    linker.Refers name (linker.resolve? name) := by
  rw [resolve?_eq]
  cases hqualified : linker.qualified? name with
  | some target =>
    obtain ⟨h, hlongest⟩ := qualified?_eq_some hqualified
    exact .qualified h hlongest
  | none =>
    have hno := qualified?_eq_none.mp hqualified
    rw [Option.none_or]
    cases hsimple : (linker.searchOrder name).findSome? (linker.target? · name) with
    | none =>
      rw [List.findSome?_eq_none_iff] at hsimple
      exact .unknown hno fun package hmem => target?_eq_none.mp (hsimple package hmem)
    | some target =>
      obtain ⟨before, package, after, horder, htarget, hpassed⟩ :=
        List.findSome?_eq_some_iff.mp hsimple
      obtain ⟨rfl, hfound⟩ := target?_eq_some.mp htarget
      exact .simple hno horder (fun other hmem => target?_eq_none.mp (hpassed other hmem)) hfound

/-- Two types that a name qualifies are the same if their packages are as long. -/
theorem Qualifies.eq {target other : Target} (h : linker.Qualifies name target)
    (hother : linker.Qualifies name other)
    (hlength : target.package.length = other.package.length) : target = other := by
  obtain ⟨type, e, hfind⟩ := h.type
  obtain ⟨type', e', hfind'⟩ := hother.type
  obtain ⟨hpackage, htype⟩ := List.append_inj (e.symm.trans e') hlength
  obtain rfl := (List.cons.inj htype).2
  rw [← hpackage, hfind] at hfind'
  cases target
  cases other
  cases hpackage
  cases hfind'
  rfl

theorem resolve?_eq_of_refers {answer : Option Target} (h : linker.Refers name answer) :
    linker.resolve? name = answer := by
  rw [resolve?_eq]
  cases h with
  | @qualified target h hlongest =>
    cases hqualified : linker.qualified? name with
    | none => exact absurd h (qualified?_eq_none.mp hqualified target)
    | some found =>
      obtain ⟨hfound, hfoundLongest⟩ := qualified?_eq_some hqualified
      have hlength := Nat.le_antisymm (hlongest found hfound) (hfoundLongest target h)
      exact congrArg some (hfound.eq h hlength)
  | simple h horder hpassed hfound =>
    rw [qualified?_eq_none.mpr h, Option.none_or, horder, List.findSome?_eq_some_iff]
    exact ⟨_, _, _, rfl, target?_eq_some.mpr ⟨rfl, hfound⟩, fun other hmem =>
      target?_eq_none.mpr (hpassed other hmem)⟩
  | unknown h hnowhere =>
    rw [qualified?_eq_none.mpr h, Option.none_or, List.findSome?_eq_none_iff]
    exact fun package hmem => target?_eq_none.mpr (hnowhere package hmem)

/-- **The answer to a name is what it refers to.** -/
theorem resolve?_eq_iff_refers {answer : Option Target} :
    linker.resolve? name = answer ↔ linker.Refers name answer :=
  ⟨fun h => h ▸ linker.refers_resolve? name, resolve?_eq_of_refers⟩

end Linker

/-! ## 5. Asking again -/

namespace Resolver

/-- Every answer is the one that the linker would give again. -/
def Faithful (resolver : Resolver) : Prop :=
  ∀ entry ∈ resolver.answers, entry.2 = resolver.linker.resolve? entry.1

theorem faithful_new (linker : Linker) : Faithful ⟨linker, []⟩ := fun _ h => nomatch h

/-- A faithful resolver gives the answer of its linker, and stays faithful. -/
theorem Faithful.resolve {resolver : Resolver} (h : resolver.Faithful) (name : Text) :
    (resolver.resolve name).1 = resolver.linker.resolve? name ∧
      (resolver.resolve name).2.Faithful ∧
      (resolver.resolve name).2.linker = resolver.linker := by
  cases hlookup : resolver.answers.lookup name with
  | some answer =>
    have hresolve : resolver.resolve name = (answer, resolver) := by
      simp only [Resolver.resolve, hlookup]
    rw [hresolve]
    exact ⟨h _ (Pairs.mem_of_lookup hlookup), h, rfl⟩
  | none =>
    have hresolve : resolver.resolve name = (resolver.linker.resolve? name, { resolver with
        answers := (name, resolver.linker.resolve? name) :: resolver.answers }) := by
      simp only [Resolver.resolve, hlookup]
    rw [hresolve]
    refine ⟨rfl, fun entry hentry => ?_, rfl⟩
    rcases List.mem_cons.mp hentry with rfl | hentry
    · rfl
    · exact h entry hentry

/-- Names asked for one after the other get the answers of the linker. -/
theorem Faithful.resolveAll {resolver : Resolver} (h : resolver.Faithful) (names : List Text) :
    (resolver.resolveAll names).1 = names.map resolver.linker.resolve? ∧
      (resolver.resolveAll names).2.Faithful ∧
      (resolver.resolveAll names).2.linker = resolver.linker := by
  induction names generalizing resolver with
  | nil => exact ⟨rfl, h, rfl⟩
  | cons name names ih =>
    obtain ⟨hanswer, hfaithful, hlinker⟩ := h.resolve name
    obtain ⟨hanswers, hlast, hsame⟩ := ih hfaithful
    rw [hlinker] at hanswers hsame
    refine ⟨?_, hlast, hsame⟩
    rw [List.map_cons, ← hanswer, ← hanswers]
    rfl

/-- **Whatever was asked before, the answer is what the name refers to**: the type of the longest
package that has one where the name is cut at a dot; or else the type of the first package in the
search order that has one; or else nothing. -/
theorem resolve_eq_iff_refers (linker : Linker) (earlier : List Text) (name : Text)
    (answer : Option Target) :
    ((Resolver.resolveAll ⟨linker, []⟩ earlier).2.resolve name).1 = answer ↔
      linker.Refers name answer := by
  obtain ⟨-, hfaithful, hlinker⟩ := (faithful_new linker).resolveAll earlier
  rw [(hfaithful.resolve name).1, hlinker]
  exact Linker.resolve?_eq_iff_refers

end Resolver

end CodeAtlas.Markup
