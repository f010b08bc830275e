/-
  File:      CodeAtlas/Proofs/Tree/Fit.lean
  Subject:   Names that the operating system can be shown.

  A path with a null character in it, or with half a character that stands for no byte,
  is turned away before any file is looked for. Whether that happens is a matter of the
  names on the path, one by one.

  * `Text.mem_codes_iff`: the halves in a text are pairs of characters that stand next to
    each other in it.
  * `Text.Fits`: a text that is not turned away. It holds of the parts of such a text
    (`Fits.of_infix`), and of what is joined by plain characters (`fits_join_iff`).
  * `Path.checkText_eq_ok_iff`: a path is fit if its names are.
  * `Path.Fits.resolve`, `Path.join_of_account`: such a path has a resolved form, unless it
    has a leading `~`.
-/
import CodeAtlas.Proofs.Tree.Changes
import CodeAtlas.Proofs.Tree.Homes

namespace CodeAtlas

/-! ## 1. Halves of characters -/

namespace Text

theorem half?_eq_some_iff {mark c : Char} {code : Nat} :
    half? mark c = some code ↔ mark = halfMark ∧ isHalf code ∧ c.toNat = code + halfShift := by
  unfold half?
  constructor
  · intro h
    split at h
    · rename_i hpair
      obtain ⟨hmark, hhalf⟩ := Bool.and_eq_true_iff.mp hpair
      obtain rfl := Option.some.inj h
      refine ⟨beq_iff_eq.mp hmark, hhalf, ?_⟩
      simp only [isHalf, Bool.and_eq_true, decide_eq_true_eq] at hhalf
      omega
    · cases h
  · rintro ⟨rfl, hhalf, hc⟩
    have hcode : c.toNat - halfShift = code := by omega
    rw [hcode, hhalf, beq_self_eq_true]
    rfl

/-- No character is half a character. -/
theorem isHalf_toNat (c : Char) : isHalf c.toNat = false := by
  rw [Bool.eq_false_iff]
  intro h
  simp only [isHalf, Bool.and_eq_true, decide_eq_true_eq] at h
  have hvalid : c.toNat < 0xD800 ∨ 0xDFFF < c.toNat ∧ c.toNat < 0x110000 := c.valid
  omega

/-- The halves of a text are the places where a mark stands before the character of a half. -/
theorem mem_codes_iff {code : Nat} (hhalf : isHalf code) (text : Text) :
    code ∈ codes text ↔ ∃ c, half? halfMark c = some code ∧ [halfMark, c] <:+: text := by
  have hno : ∀ c : Char, code ≠ c.toNat := by
    rintro c rfl
    rw [isHalf_toNat] at hhalf
    cases hhalf
  unfold codes
  fun_induction characters text with
  | case1 c d rest hpair ih =>
    obtain ⟨found, hfound⟩ := Option.isSome_iff_exists.mp hpair
    obtain ⟨rfl, -, hd⟩ := half?_eq_some_iff.mp hfound
    have hcode : Text.code [halfMark, d] = found := by
      simp only [Text.code, hfound, Option.getD_some]
    rw [List.map_cons, List.mem_cons, hcode]
    refine (or_congr_right ih).trans ⟨?_, ?_⟩
    · rintro (rfl | ⟨c, hc, hin⟩)
      · exact ⟨d, hfound, (List.prefix_append [halfMark, d] rest).isInfix⟩
      · exact ⟨c, hc, hin.trans (List.suffix_append [halfMark, d] rest).isInfix⟩
    · rintro ⟨c, hc, hin⟩
      rcases List.infix_cons_iff.mp hin with hstart | hin
      · obtain ⟨-, hsecond⟩ := List.cons_prefix_cons.mp hstart
        obtain ⟨rfl, -⟩ := List.cons_prefix_cons.mp hsecond
        exact Or.inl (Option.some.inj (hc.symm.trans hfound))
      · rcases List.infix_cons_iff.mp hin with hstart | hin
        · -- the second character of a half is not a mark itself
          obtain ⟨rfl, -⟩ := List.cons_prefix_cons.mp hstart
          cases hfound
        · exact Or.inr ⟨c, hc, hin⟩
  | case2 c d rest hpair ih =>
    rw [List.map_cons, List.mem_cons]
    refine (or_congr_right ih).trans ⟨?_, ?_⟩
    · rintro (hcode | ⟨e, he, hin⟩)
      · exact absurd hcode (hno c)
      · exact ⟨e, he, hin.trans (List.suffix_cons c _).isInfix⟩
    · rintro ⟨e, he, hin⟩
      rcases List.infix_cons_iff.mp hin with hstart | hin
      · obtain ⟨rfl, hsecond⟩ := List.cons_prefix_cons.mp hstart
        obtain ⟨rfl, -⟩ := List.cons_prefix_cons.mp hsecond
        exact absurd (by rw [he]; rfl) hpair
      · exact Or.inr ⟨e, he, hin⟩
  | case3 c =>
    simp only [List.map_cons, List.map_nil, List.mem_singleton]
    constructor
    · intro hcode
      exact absurd hcode (hno c)
    · rintro ⟨e, -, hin⟩
      have := hin.length_le
      simp at this
  | case4 =>
    simp only [List.map_nil, List.not_mem_nil, false_iff]
    rintro ⟨e, -, hin⟩
    have := hin.length_le
    simp at this

/-- A text that can be shown to the operating system: no null character is in it, and every half
of a character stands for a byte. -/
def Fits (text : Text) : Prop :=
  '\x00' ∉ text ∧ ∀ c code, half? halfMark c = some code → [halfMark, c] <:+: text →
    HalfFault.isByte code

end Text

theorem HalfFault.find?_eq_none_iff {allowed : Nat → Bool} {position : Nat} {codes : List Nat} :
    find? allowed position codes = none ↔
      ∀ code ∈ codes, Text.isHalf code → allowed code := by
  induction codes generalizing position with
  | nil => simp [find?]
  | cons code codes ih =>
    rw [find?, List.forall_mem_cons]
    by_cases hbad : (Text.isHalf code && !allowed code) = true
    · rw [if_pos hbad]
      obtain ⟨hhalf, hno⟩ := Bool.and_eq_true_iff.mp hbad
      rw [Bool.not_eq_true'] at hno
      simp [hhalf, hno]
    · rw [if_neg hbad, ih]
      simp only [Bool.and_eq_true, Bool.not_eq_true', not_and, Bool.not_eq_false] at hbad
      exact ⟨fun h => ⟨hbad, h⟩, And.right⟩

namespace Text

theorem fits_iff {text : Text} :
    Fits text ↔ HalfFault.inFileName? text = none ∧ text.contains '\x00' = false := by
  unfold Fits HalfFault.inFileName?
  rw [HalfFault.find?_eq_none_iff, ← Bool.not_eq_true, List.contains_iff_mem, and_comm]
  refine and_congr_left fun _ => ⟨fun h code hm hhalf => ?_, fun h c code hc hin => ?_⟩
  · obtain ⟨c, hc, hin⟩ := (mem_codes_iff hhalf text).mp hm
    exact h c code hc hin
  · have hhalf := (half?_eq_some_iff.mp hc).2.1
    exact h code ((mem_codes_iff hhalf text).mpr ⟨c, hc, hin⟩) hhalf

instance (text : Text) : Decidable (Fits text) := decidable_of_iff' _ fits_iff

/-! ## 2. Parts of texts -/

theorem Fits.of_infix {part text : Text} (h : Fits text) (hpart : part <:+: text) : Fits part :=
  ⟨fun hm => h.1 (hpart.subset hm), fun c code hc hin => h.2 c code hc (hin.trans hpart)⟩

/-- A character that is neither a null character nor one of those that a half is made of. -/
def IsPlain (x : Char) : Prop := x ≠ '\x00' ∧ x ≠ halfMark ∧ half? halfMark x = none

instance (x : Char) : Decidable (IsPlain x) := inferInstanceAs (Decidable (_ ∧ _))

theorem fits_append_cons_iff {x : Char} (hx : IsPlain x) {a b : Text} :
    Fits (a ++ x :: b) ↔ Fits a ∧ Fits b := by
  constructor
  · intro h
    exact ⟨h.of_infix (List.prefix_append a _).isInfix,
      h.of_infix ((List.suffix_cons x b).trans (List.suffix_append a _)).isInfix⟩
  · rintro ⟨ha, hb⟩
    refine ⟨fun hm => ?_, fun c code hc hin => ?_⟩
    · rcases List.mem_append.mp hm with hm | hm
      · exact ha.1 hm
      · rcases List.mem_cons.mp hm with hm | hm
        · exact hx.1 hm.symm
        · exact hb.1 hm
    · have hlacks : x ∉ [halfMark, c] := by
        intro hm
        rcases List.mem_pair.mp hm with rfl | rfl
        · exact hx.2.1 rfl
        · rw [hx.2.2] at hc
          cases hc
      rcases infix_of_infix_append_cons hlacks hin with hin | hin
      · exact ha.2 c code hc hin
      · exact hb.2 c code hc hin

theorem fits_nil : Fits [] := by decide

theorem isPlain_slash : IsPlain '/' := by decide

theorem isPlain_dot : IsPlain '.' := by decide

theorem Fits.swap {text : Text} (h : Fits text) {new : Char} (hnew : IsPlain new) (old : Char) :
    Fits (swap old new text) := by
  have hold : ∀ {c d : Char}, (if c == old then new else c) = d → d ≠ new → c = d := by
    intro c d e hd
    split at e
    · exact absurd e.symm hd
    · exact e
  refine ⟨fun hm => ?_, fun c code hc hin => ?_⟩
  · obtain ⟨d, hd, e⟩ := List.mem_map.mp hm
    rw [hold e hnew.1.symm] at hd
    exact h.1 hd
  · obtain ⟨before, after, e⟩ := hin
    obtain ⟨first, rest, rfl, hfirst, hrest⟩ := List.map_eq_append_iff.mp e.symm
    obtain ⟨lead, pair, rfl, -, hpair⟩ := List.map_eq_append_iff.mp hfirst
    obtain ⟨mark, more, rfl, hmark, hmore⟩ := List.map_eq_cons_iff.mp hpair
    obtain ⟨second, none, rfl, hsecond, hnone⟩ := List.map_eq_cons_iff.mp hmore
    obtain rfl := List.map_eq_nil_iff.mp hnone
    have hplain : c ≠ new := by
      rintro rfl
      rw [hnew.2.2] at hc
      cases hc
    rw [hold hmark hnew.2.1.symm, hold hsecond hplain] at h
    exact h.2 c code hc ⟨lead, rest, rfl⟩

theorem fits_join_iff {x : Char} (hx : IsPlain x) {parts : List Text} :
    Fits (join [x] parts) ↔ ∀ part ∈ parts, Fits part := by
  constructor
  · intro h part hm
    exact h.of_infix (infix_intercalate hm)
  · intro h
    induction parts with
    | nil => exact fits_nil
    | cons first parts ih =>
      cases parts with
      | nil =>
        unfold join
        rw [List.intercalate_singleton]
        exact h first List.mem_cons_self
      | cons next parts =>
        unfold join at ih ⊢
        rw [List.intercalate_cons_cons, List.append_assoc]
        exact (fits_append_cons_iff hx).mpr ⟨h first List.mem_cons_self,
          ih fun part hm => h part (List.mem_cons_of_mem first hm)⟩

end Text

/-! ## 3. Paths -/

namespace Path

/-- A path whose names can be shown to the operating system. -/
def Fits (path : Path) : Prop := ∀ segment ∈ path.segments, Text.Fits segment

instance (path : Path) : Decidable path.Fits := inferInstanceAs (Decidable (∀ _ ∈ _, _))

variable {path : Path}

theorem fits_toText_iff : Text.Fits path.toText ↔ path.Fits := by
  have hbody : Text.Fits (Text.join ['/'] path.segments) ↔ path.Fits :=
    Text.fits_join_iff Text.isPlain_slash
  have hslash : ∀ before : Text, Text.Fits before →
      (Text.Fits (before ++ '/' :: Text.join ['/'] path.segments) ↔ path.Fits) := fun before h => by
    rw [Text.fits_append_cons_iff Text.isPlain_slash, hbody]
    exact and_iff_right h
  obtain ⟨anchor, segments⟩ := path
  cases anchor with
  | relative =>
    cases segments with
    | nil => exact iff_of_true (by decide) (fun _ h => nomatch h)
    | cons first rest => exact hbody
  | root => exact hslash [] (by decide)
  | doubleRoot => exact hslash ['/'] (by decide)
  | builtIn =>
    cases segments with
    | nil => exact iff_of_true (by decide) (fun _ h => nomatch h)
    | cons first rest => exact hslash builtInText (by decide)

/-- Whether a path can be shown to the operating system is a matter of its names. -/
theorem checkText_eq_ok_iff : path.checkText = .ok () ↔ path.Fits := by
  rw [← fits_toText_iff, Text.fits_iff]
  unfold checkText
  cases HalfFault.inFileName? path.toText with
  | some fault => simp
  | none =>
    cases path.toText.contains '\x00' with
    | true => simp
    | false => simp

theorem checkText_of_check (h : path.check = .ok ()) : path.checkText = .ok () := by
  unfold check at h
  cases hshown : path.checkText with
  | error fault =>
    rw [hshown] at h
    cases h
  | ok shown => rfl

/-- A path is turned away because of its names, or for its length. -/
theorem checkText_of_check_error {fault : FileFault} (h : path.check = .error fault)
    (hnames : fault.isOfSystem = false) : path.checkText = .error fault := by
  unfold check at h
  cases hshown : path.checkText with
  | error other =>
    rw [hshown] at h
    exact h
  | ok shown =>
    rw [hshown] at h
    simp only [bind, Except.bind] at h
    split at h
    · cases h
      cases hnames
    · cases h

theorem not_fits_of_checkText {fault : FileFault} (h : path.checkText = .error fault) :
    ¬ path.Fits := by
  intro hfits
  rw [checkText_eq_ok_iff.mpr hfits] at h
  cases h

theorem Fits.of_prefix (h : path.Fits) {anchor : Anchor} {above : List Text}
    (habove : above <+: path.segments) : (⟨anchor, above⟩ : Path).Fits :=
  fun segment hm => h segment (habove.subset hm)

theorem Fits.join {base : Path} (hbase : base.Fits) (h : path.Fits) : (base.join path).Fits := by
  intro segment hm
  unfold Path.join at hm
  split at hm
  · exact h segment hm
  · exact (List.mem_append.mp hm).elim (hbase segment) (h segment)

theorem Fits.child (h : path.Fits) {name : Text} (hname : Text.Fits name) :
    (path.child name).Fits := by
  intro segment hm
  rcases List.mem_append.mp hm with hm | hm
  · exact h segment hm
  · rw [List.mem_singleton.mp hm]
    exact hname

theorem Fits.parent (h : path.Fits) : path.parent.Fits :=
  fun segment hm => h segment (List.mem_of_mem_dropLast hm)

theorem Fits.name (h : path.Fits) : Text.Fits path.name := by
  unfold Path.name
  cases hlast : path.segments.getLast? with
  | none => exact Text.fits_nil
  | some last => exact h last (List.mem_of_getLast? hlast)

theorem Fits.descend {segments : List Text} (h : ∀ segment ∈ segments, Text.Fits segment) :
    ∀ segment ∈ Path.descend [] segments, Text.Fits segment := by
  intro segment hm
  rcases mem_descend hm with hm | ⟨hm, -⟩
  · exact absurd hm List.not_mem_nil
  · exact h segment hm

theorem Fits.resolved (h : path.Fits) : path.resolved.Fits := Fits.descend h

theorem fits_ofText {text : Text} (h : Text.Fits text) : (ofText text).Fits :=
  fun _ hm => h.of_infix (infix_of_mem_splitOn (List.mem_of_mem_filter hm))

theorem Fits.resolve [Platform] (h : path.Fits) (haccount : path.account? = none) :
    path.resolve = .ok path.resolved :=
  resolve_eq_ok_iff.mpr ⟨path, expand_of_account haccount, checkText_eq_ok_iff.mpr h, rfl⟩

/-- Of the paths below a root without a leading `~`, only those below `.` may have one. -/
theorem join_of_account {root : Path} (hroot : root.account? = none)
    (h : (root.join path).account? ≠ none) : root = ⟨.relative, []⟩ ∧ root.join path = path := by
  obtain ⟨anchor, segments⟩ := path
  obtain ⟨first, above⟩ := root
  cases anchor with
  | root | doubleRoot | builtIn => exact absurd rfl h
  | relative =>
    cases first with
    | root | doubleRoot | builtIn => exact absurd rfl h
    | relative =>
      cases above with
      | nil => exact ⟨rfl, rfl⟩
      | cons name rest =>
        -- the first name is that of the root
        refine absurd ?_ h
        show account? ⟨.relative, name :: (rest ++ segments)⟩ = none
        unfold account? at hroot ⊢
        split at hroot
        · cases hroot
        · rename_i hname
          split
          · rename_i account _ _ hsegments
            cases hsegments
            exact absurd rfl (hname account rest rfl)
          · rfl

end Path

end CodeAtlas
