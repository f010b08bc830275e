/-
  File:      CodeAtlas/Markup/Comment.lean
  Subject:   Cutting a line into code and comments.

  * `CommentState`: what the end of a line leaves open; the only thing that one
    line tells the next.
  * `commentMarker?`: where the first comment of some code starts. A marker with
    an odd number of double quotes before it and after it stands in a literal.
  * `segments`: the pieces of a line, which put together are the line again,
    and the state after it.
-/
import CodeAtlas.Text.Basic

namespace CodeAtlas.Markup

/-- What a line starts in: code, a block comment, or a documentation comment. -/
inductive CommentState where
  | code
  | block
  | doc
  deriving DecidableEq, Repr

/-- A piece of a line. -/
inductive Segment where
  | code (text : Text)
  /-- A comment. One that ends with its line is marked with `CommentState.code`. -/
  | comment (kind : CommentState) (text : Text)
  deriving DecidableEq, Repr

/-- Whether a piece is a comment. -/
def Segment.isComment : Segment → Bool
  | .code _ => false
  | .comment .. => true

/-- Whether a text starts with `//` or `/*`. -/
def startsComment : Text → Bool
  | '/' :: '/' :: _ => true
  | '/' :: '*' :: _ => true
  | _ => false

/-- The offset of the first comment marker outside literals. `quotes` counts the double quotes
before `position`; `second` tells that the next character ends a marker that was passed over. -/
def commentMarkerFrom (quotes : Nat) (second : Bool) (position : Nat) : Text → Option Nat
  | [] => none
  | c :: rest =>
    if !second && startsComment (c :: rest) then
      if quotes % 2 == 1 && (c :: rest).count '"' % 2 == 1 then
        commentMarkerFrom quotes true (position + 1) rest
      else some position
    else
      commentMarkerFrom (if c == '"' then quotes + 1 else quotes) false (position + 1) rest

/-- The offset of the first comment marker outside literals. -/
def commentMarker? (text : Text) : Option Nat := commentMarkerFrom 0 false 0 text

/-- A comment up to and with its closing `*/`, which is looked for after `skip` characters, and
what follows. -/
def closeComment? (skip : Nat) (text : Text) : Option (Text × Text) :=
  (Text.cut? ['*', '/'] (text.drop skip)).map fun (before, after) =>
    (text.take skip ++ before ++ ['*', '/'], after)

/-- The kind of comment that an opening marker begins. -/
def openedBy (opener : Text) : CommentState :=
  if "/**".toList.isPrefixOf opener && !"/**/".toList.isPrefixOf opener then .doc else .block

theorem cut?_length {pattern text before after : Text}
    (h : Text.cut? pattern text = some (before, after)) : after.length ≤ text.length := by
  induction text generalizing before with
  | nil =>
    unfold Text.cut? at h
    split at h
    · cases h; exact Nat.le_refl _
    · exact nomatch h
  | cons c rest ih =>
    unfold Text.cut? at h
    split at h
    · cases h
      rw [List.length_drop]
      exact Nat.sub_le _ _
    · obtain ⟨⟨b, a⟩, hc, he⟩ := Option.map_eq_some_iff.mp h
      cases he
      exact Nat.le_succ_of_le (ih hc)

theorem closeComment?_length {skip : Nat} {text comment rest : Text}
    (h : closeComment? skip text = some (comment, rest)) :
    rest.length ≤ text.length - skip := by
  unfold closeComment? at h
  obtain ⟨⟨b, a⟩, hc, he⟩ := Option.map_eq_some_iff.mp h
  cases he
  have hlen := cut?_length hc
  rwa [List.length_drop] at hlen

theorem commentMarkerFrom_lt {quotes position found : Nat} {second : Bool} {text : Text}
    (h : commentMarkerFrom quotes second position text = some found) :
    found < position + text.length := by
  induction text generalizing quotes second position with
  | nil => exact nomatch h
  | cons c rest ih =>
    rw [List.length_cons]
    unfold commentMarkerFrom at h
    split at h
    · split at h
      · have := ih h; omega
      · cases h; omega
    · have := ih h; omega

/-- The segments of a text that starts in code, and the state after it. -/
def codeSegments (text : Text) : List Segment × CommentState :=
  match _hm : commentMarker? text with
  | none => ([.code text], .code)
  | some position =>
    let opener := text.drop position
    if ['/', '/'].isPrefixOf opener then
      ([.code (text.take position), .comment .code opener], .code)
    else
      match _hc : closeComment? 2 opener with
      | none => ([.code (text.take position), .comment (openedBy opener) opener], openedBy opener)
      | some (comment, rest) =>
        let (more, state) := codeSegments rest
        (.code (text.take position) :: .comment (openedBy opener) comment :: more, state)
termination_by text.length
decreasing_by
  have hlen := closeComment?_length _hc
  have hlt := commentMarkerFrom_lt _hm
  rw [List.length_drop] at hlen
  omega

/-- The segments of a text that starts in a given state, and the state after it. -/
def segments (state : CommentState) (text : Text) : List Segment × CommentState :=
  match state with
  | .code => codeSegments text
  | kind =>
    match closeComment? 0 text with
    | none => ([.comment kind text], kind)
    | some (comment, rest) =>
      let (more, after) := codeSegments rest
      (.comment kind comment :: more, after)

end CodeAtlas.Markup
