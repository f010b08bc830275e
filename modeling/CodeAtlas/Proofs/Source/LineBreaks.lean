/-
  File:      CodeAtlas/Proofs/Source/LineBreaks.lean
  Subject:   The tokens of a text in two parts, one on each side of a line feed.

  Nothing but a block comment goes on behind a line feed. Every rule that ends a
  word, a number, a literal or a comment at the end of the text therefore ends it in
  the same way at the end of a line.

  * `Token.moved`: a token some lines further down.
  * `Token.scanFrom_moved`: the line on which a scan starts only moves its tokens.
  * `Token.scanFrom_append_cons`: a character that completes what was being read cuts
    a scan in two, and the second part starts on the line that the first has reached.
  * `Token.scan_append_newline`: the tokens of two texts with a line feed between them
    are those of the first and, moved down, those of the second.
-/
import CodeAtlas.Proofs.Source.Comments

namespace CodeAtlas

/-! ## 1. Tokens further down -/

theorem lineAfter_add (line lines : Nat) (c : Char) :
    lineAfter (line + lines) c = lineAfter line c + lines := by
  unfold lineAfter
  split_ifs <;> omega

namespace Token

/-- The token `lines` lines further down. -/
def moved (lines : Nat) (token : Token) : Token := { token with line := token.line + lines }

/-- The line on which a scan starts only moves its tokens. -/
theorem scanFrom_moved (mode : Mode) (line lines : Nat) (text : Text) :
    scanFrom mode (line + lines) text = (scanFrom mode line text).map (moved lines) := by
  induction text generalizing mode line with
  | nil => simp [scanFrom, moved, Function.comp_def]
  | cons c text ih =>
    rw [scanFrom, scanFrom, lineAfter_add, ih, List.map_append, List.map_map]
    rfl

/-! ## 2. Cutting a scan in two -/

/-- A character that completes what was being read cuts a scan in two. What stands behind it is
read on the line that the text up to it has reached. -/
theorem scanFrom_append_cons {mode next : Mode} {a : Text} {c : Char}
    (h : (mode.after a).read c = ((mode.after a).rest, next)) (line : Nat) (b : Text) :
    scanFrom mode line (a ++ c :: b) =
      scanFrom mode line a ++ scanFrom next (lineAfter (line + a.count '\n') c) b := by
  induction a generalizing mode line with
  | nil =>
    rw [Mode.after_nil] at h
    rw [List.nil_append, scanFrom, scanFrom, h, List.count_nil, Nat.add_zero]
  | cons d a ih =>
    rw [List.cons_append, scanFrom, scanFrom, ih h, count_newline_cons, List.append_assoc]

/-- **Two texts with a line feed between them** have the tokens of the first, followed by those
of the second on the lines that they move down to. The first text must not end within a block
comment. -/
theorem scan_append_newline {a : Text} (h : (Mode.between.after a).inBlock = false) (b : Text) :
    scan (a ++ '\n' :: b) = scan a ++ (scan b).map (moved (1 + a.count '\n')) := by
  have hline : lineAfter (1 + a.count '\n') '\n' = 1 + (1 + a.count '\n') := Nat.add_comm _ 1
  calc scan (a ++ '\n' :: b)
      = scan a ++ scanFrom .between (lineAfter (1 + a.count '\n') '\n') b :=
        scanFrom_append_cons (Mode.read_newline h) 1 b
    _ = scan a ++ (scan b).map (moved (1 + a.count '\n')) := by
        rw [hline, scanFrom_moved]
        rfl

/-- A literal that is open at the end of its line, and that ends in a backslash, does not reach
the next line. -/
theorem scan_append_newline_open_literal :
    (Mode.between.after "x.\n\"y\\".toList).inBlock = false ∧
      scan ("x.\n\"y\\".toList ++ '\n' :: "*/z\n.5".toList) =
        [⟨.word "x.".toList, 1⟩, ⟨.literal '"' "y\\".toList, 2⟩, ⟨.number, 4⟩] := by
  have hopen : (Mode.between.after "x.\n\"y\\".toList).inBlock = false := by decide
  refine ⟨hopen, ?_⟩
  rw [scan_append_newline hopen]
  decide

end Token

end CodeAtlas
