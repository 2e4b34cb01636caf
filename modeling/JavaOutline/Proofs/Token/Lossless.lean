import JavaOutline.Proofs.Token.Restart

/-!
# Nothing is lost in scanning

The tokens of a text and the gaps between them, joined in order, are the text. A gap consists of
white space and comments; only the one behind the last token may end inside a comment, which is
then unclosed.
-/

namespace JavaOutline.Token

open scoped Computability

/-! ## Gaps -/

/-- A character of white space. -/
def whiteSpace : Language Char :=
  {text | ∃ c, isWhiteSpace c = true ∧ text = [c]}

/-- A comment from two slashes to the end of its line, the line feed included. -/
def lineComment : Language Char :=
  {text | ∃ body, '\n' ∉ body ∧ text = '/' :: '/' :: body ++ ['\n']}

/-- A comment from `/*` to the next `*/`. -/
def blockComment : Language Char :=
  {text | ∃ body, ¬['*', '/'] <:+: body ∧ text = '/' :: '*' :: body ++ ['*', '/']}

/-- A comment that the text ends in: one that its line does not end, or one that is not closed. -/
def openComment : Language Char :=
  {text | ∃ body, '\n' ∉ body ∧ text = '/' :: '/' :: body ∨
    ¬['*', '/'] <:+: body ∧ text = '/' :: '*' :: body}

/-- What stands between two tokens. -/
def gap : Language Char := (whiteSpace + lineComment + blockComment)∗

/-- What stands behind the last token. -/
def lastGap : Language Char := gap + gap * openComment

theorem lineCommentLength_cases (cs : List Char) :
    (∃ body, '\n' ∉ body ∧ cs.take (lineCommentLength cs) = body ++ ['\n']) ∨
      '\n' ∉ cs ∧ cs.length ≤ lineCommentLength cs := by
  fun_induction lineCommentLength cs with
  | case1 => exact .inr ⟨by simp, Nat.le_refl _⟩
  | case2 cs => exact .inl ⟨[], by simp, rfl⟩
  | case3 c cs goes_on induction =>
      rcases induction with ⟨body, no_end, taken⟩ | ⟨no_end, length_le⟩
      · refine .inl ⟨c :: body, ?_, ?_⟩
        · simp [no_end, Ne.symm goes_on]
        · rw [List.take_succ_cons, taken, List.cons_append]
      · refine .inr ⟨?_, Nat.succ_le_succ length_le⟩
        simp [no_end, Ne.symm goes_on]

theorem not_infix_cons {c : Char} {body : List Char} (inside : ¬['*', '/'] <:+: body)
    (front : ∀ rest, c = '*' → body ≠ '/' :: rest) : ¬['*', '/'] <:+: c :: body := by
  intro found
  rcases List.infix_cons_iff.mp found with first | later
  · obtain ⟨rest, chars_eq⟩ := first
    obtain ⟨star, body_eq⟩ := List.cons.inj chars_eq
    exact front rest star.symm body_eq.symm
  · exact inside later

theorem blockCommentLength_cases (cs : List Char) :
    (∃ body, ¬['*', '/'] <:+: body ∧ cs.take (blockCommentLength cs) = body ++ ['*', '/']) ∨
      ¬['*', '/'] <:+: cs ∧ cs.length ≤ blockCommentLength cs := by
  fun_induction blockCommentLength cs with
  | case1 => exact .inr ⟨by simp, Nat.le_refl _⟩
  | case2 cs => exact .inl ⟨[], by simp, rfl⟩
  | case3 c cs open_ induction =>
      rcases induction with ⟨body, unclosed, taken⟩ | ⟨unclosed, length_le⟩
      · refine .inl ⟨c :: body, not_infix_cons unclosed ?_, ?_⟩
        · rintro rest rfl rfl
          -- The comment would have been closed in front of `rest`.
          obtain ⟨more, cs_eq⟩ : ∃ more, cs = '/' :: more := by
            cases cs with
            | nil => cases taken
            | cons d cs =>
                obtain ⟨n, length_eq⟩ : ∃ n, blockCommentLength (d :: cs) = n + 1 := by
                  cases length_eq : blockCommentLength (d :: cs) with
                  | zero => rw [length_eq] at taken; cases taken
                  | succ n => exact ⟨n, rfl⟩
                rw [length_eq, List.take_succ_cons, List.cons_append] at taken
                exact ⟨cs, by rw [(List.cons.inj taken).1]⟩
          exact open_ more rfl cs_eq
        · rw [List.take_succ_cons, taken, List.cons_append]
      · refine .inr ⟨not_infix_cons unclosed ?_, Nat.succ_le_succ length_le⟩
        rintro rest star rfl
        exact open_ rest star rfl

/-- A piece that is no token is white space or a comment, or a comment that the text ends in. -/
theorem blank_cases {c : Char} {cs : List Char} {more : Nat}
    (piece_eq : pieceAt c cs = (more, none)) :
    c :: cs.take more ∈ whiteSpace + lineComment + blockComment ∨
      c :: cs ∈ openComment ∧ cs.length ≤ more := by
  unfold pieceAt at piece_eq
  split_ifs at piece_eq with white line block
  · obtain rfl : 0 = more := (Prod.mk.inj piece_eq).1
    exact .inl (.inl (.inl ⟨c, white, rfl⟩))
  · obtain ⟨rfl, next⟩ : c = '/' ∧ cs.head? = some '/' := by simpa using line
    obtain ⟨cs, rfl⟩ := List.head?_eq_some_iff.mp next
    obtain rfl : lineCommentLength cs + 1 = more := (Prod.mk.inj piece_eq).1
    rcases lineCommentLength_cases cs with ⟨body, no_end, taken⟩ | ⟨no_end, length_le⟩
    · refine .inl (.inl (.inr ⟨body, no_end, ?_⟩))
      rw [List.take_succ_cons, taken]
      rfl
    · exact .inr ⟨⟨cs, .inl ⟨no_end, rfl⟩⟩, Nat.succ_le_succ length_le⟩
  · obtain ⟨rfl, next⟩ : c = '/' ∧ cs.head? = some '*' := by simpa using block
    obtain ⟨cs, rfl⟩ := List.head?_eq_some_iff.mp next
    obtain rfl : blockCommentLength cs + 1 = more := (Prod.mk.inj piece_eq).1
    rcases blockCommentLength_cases cs with ⟨body, unclosed, taken⟩ | ⟨unclosed, length_le⟩
    · refine .inl (.inr ⟨body, unclosed, ?_⟩)
      rw [List.take_succ_cons, taken]
      rfl
    · exact .inr ⟨⟨cs, .inr ⟨unclosed, rfl⟩⟩, Nat.succ_le_succ length_le⟩
  · cases (Prod.mk.inj piece_eq).2

theorem nil_mem_gap : [] ∈ gap :=
  Language.nil_mem_kstar _

theorem append_mem_gap {blank more : List Char}
    (first : blank ∈ whiteSpace + lineComment + blockComment) (later : more ∈ gap) :
    blank ++ more ∈ gap := by
  rw [gap, ← Language.one_add_self_mul_kstar_eq_kstar]
  exact .inr (Language.append_mem_mul first later)

theorem append_mem_lastGap {blank more : List Char}
    (first : blank ∈ whiteSpace + lineComment + blockComment) (later : more ∈ lastGap) :
    blank ++ more ∈ lastGap := by
  rcases later with closed | unclosed
  · exact .inl (append_mem_gap first closed)
  · obtain ⟨front, front_mem, comment, comment_mem, rfl⟩ := Language.mem_mul.mp unclosed
    rw [← List.append_assoc]
    exact .inr (Language.append_mem_mul (append_mem_gap first front_mem) comment_mem)

/-! ## Tokens between gaps -/

/-- Whether a text that begins at byte `offset` consists of some tokens, each where it stands, with
a gap in front of each of them and one behind the last. -/
inductive Tiles : (offset : Nat) → List Char → List Token → Prop
  | last {offset : Nat} {blank : List Char} : blank ∈ lastGap → Tiles offset blank []
  | token {offset : Nat} {blank chars rest : List Char} {tokens : List Token} (kind : TokenKind) :
      blank ∈ gap → chars ≠ [] → Tiles (offset + byteLength (blank ++ chars)) rest tokens →
      Tiles offset (blank ++ (chars ++ rest))
        (⟨kind, .ofList chars,
          ⟨offset + byteLength blank, offset + byteLength (blank ++ chars)⟩⟩ :: tokens)

/-- A blank in front widens the first gap. -/
theorem Tiles.widen {offset : Nat} {blank rest : List Char} {tokens : List Token}
    (first : blank ∈ whiteSpace + lineComment + blockComment)
    (tiles : Tiles (offset + byteLength blank) rest tokens) :
    Tiles offset (blank ++ rest) tokens := by
  cases tiles with
  | last later => exact .last (append_mem_lastGap first later)
  | token kind later nonempty tiles =>
      rw [← List.append_assoc]
      rw [Nat.add_assoc, ← byteLength_append, ← List.append_assoc] at tiles
      have joined := Tiles.token kind (append_mem_gap first later) nonempty tiles
      simpa only [byteLength_append, Nat.add_assoc] using joined

/-- Scanning cuts a text into its tokens and the gaps between them. -/
theorem tiles_scanFrom (offset : Nat) (cs : List Char) :
    Tiles offset cs (scanFrom 0 offset cs) := by
  match cs with
  | [] => exact .last (.inl nil_mem_gap)
  | c :: cs =>
      rcases piece_eq : pieceAt c cs with ⟨more, kind?⟩
      have later := tiles_scanFrom (offset + byteLength (c :: cs.take more)) (cs.drop more)
      have chars_eq : c :: cs = c :: cs.take more ++ cs.drop more := by
        rw [List.cons_append, List.take_append_drop]
      rw [scanFrom_eq_append piece_eq]
      cases kind? with
      | none =>
          rcases blank_cases piece_eq with blank | ⟨comment, length_le⟩
          · rw [chars_eq]
            exact later.widen blank
          · rw [List.drop_of_length_le length_le]
            exact .last (.inr (Language.append_mem_mul nil_mem_gap comment))
      | some kind =>
          rw [chars_eq]
          exact .token kind nil_mem_gap (List.cons_ne_nil _ _) later
termination_by cs.length
decreasing_by
  simp only [List.length_drop, List.length_cons]
  omega

namespace Tiles

variable {offset : Nat} {text : List Char} {tokens : List Token}

theorem le_start (tiles : Tiles offset text tokens) {token : Token} (member : token ∈ tokens) :
    offset ≤ token.span.start := by
  induction tiles with
  | last => cases member
  | token kind _ _ _ induction =>
      cases member with
      | head => exact Nat.le_add_right _ _
      | tail _ member => exact Nat.le_trans (Nat.le_add_right _ _) (induction member)

/-- No token begins before the one in front of it ends. -/
theorem pairwise (tiles : Tiles offset text tokens) :
    tokens.Pairwise fun token following => token.span.stop ≤ following.span.start := by
  induction tiles with
  | last => exact .nil
  | token kind _ _ later induction => exact .cons (fun _ member => later.le_start member) induction

/-- The characters of a token stand at its place, and nowhere else. -/
theorem exists_append (tiles : Tiles offset text tokens) {token : Token} (member : token ∈ tokens) :
    ∃ left chars right, text = left ++ (chars ++ right) ∧ chars ≠ [] ∧
      token.text = .ofList chars ∧
      token.span = ⟨offset + byteLength left, offset + byteLength (left ++ chars)⟩ := by
  induction tiles with
  | last => cases member
  | @token offset blank chars rest tokens kind _ nonempty _ induction =>
      cases member with
      | head => exact ⟨blank, chars, rest, rfl, nonempty, rfl, rfl⟩
      | tail _ member =>
          obtain ⟨left, inner, right, rest_eq, nonempty, text_eq, span_eq⟩ := induction member
          refine ⟨blank ++ chars ++ left, inner, right, ?_, nonempty, text_eq, ?_⟩
          · simp only [rest_eq, List.append_assoc]
          · simp only [span_eq, byteLength_append, Nat.add_assoc]

end Tiles

/-- Whether a token that was scanned from a source at an offset holds the characters under its span,
which is not empty and cuts no character. -/
structure StandsIn (source : Source) (offset : Nat) (token : Token) : Prop where
  offset_le : offset ≤ token.span.start
  start_lt_stop : token.span.start < token.span.stop
  boundary_start : source.IsBoundary (token.span.start - offset)
  boundary_stop : source.IsBoundary (token.span.stop - offset)
  slice_eq : source.slice? ⟨token.span.start - offset, token.span.stop - offset⟩ = some token.text

theorem Tiles.standsIn {source : Source} {offset : Nat} {tokens : List Token}
    (tiles : Tiles offset source.chars tokens) {token : Token} (member : token ∈ tokens) :
    token.StandsIn source offset := by
  obtain ⟨left, chars, right, chars_eq, nonempty, text_eq, span_eq⟩ := tiles.exists_append member
  have positive : 0 < byteLength chars := by
    cases chars with
    | nil => exact absurd rfl nonempty
    | cons c chars => exact Nat.lt_of_lt_of_le c.utf8Size_pos (Nat.le_add_right _ _)
  constructor <;> simp only [span_eq, Nat.add_sub_cancel_left]
  · exact Nat.le_add_right _ _
  · rw [byteLength_append]
    omega
  · exact ⟨left, chars ++ right, chars_eq, rfl⟩
  · exact ⟨left ++ chars, right, by rw [chars_eq, List.append_assoc], rfl⟩
  · rw [Source.slice?, chars_eq, byteLength_append, sliceBytes?_append, text_eq]
    rfl

/-- Every text whose tokens all end at an offset is scanned, and scanning loses nothing: the tokens
hold what is written under their spans, which follow one another, and all that is not under one of
them is white space and comments. -/
theorem scan?_lossless (source : Source) (offset : Nat)
    (fits : ∀ token ∈ scan offset source.chars, token.span.stop < offsetBound) :
    ∃ tokens, scan? offset source.chars = .ok tokens ∧ Tiles offset source.chars tokens ∧
      (∀ token ∈ tokens, token.StandsIn source offset) ∧
      tokens.Pairwise fun token following => token.span.stop ≤ following.span.start := by
  have tiles : Tiles offset source.chars (scan offset source.chars) := tiles_scanFrom offset _
  refine ⟨scan offset source.chars, ?_, tiles, fun _ => tiles.standsIn, tiles.pairwise⟩
  have all_fit : (scan offset source.chars).all (·.span.stop < offsetBound) = true :=
    List.all_eq_true.mpr fun token member => decide_eq_true (fits token member)
  rw [scan?, if_pos all_fit]

/-- The text `/**/ é// x`, a line feed and `"a /*`, which ends inside a string. -/
def gappedSource : Source := .ofString "/**/ é// x\n\"a /*"

theorem scan?_gappedSource :
    (∀ token ∈ scan 7 gappedSource.chars, token.span.stop < offsetBound) ∧
      ∃ tokens, scan? 7 gappedSource.chars = .ok tokens ∧ Tiles 7 gappedSource.chars tokens ∧
        (∀ token ∈ tokens, token.StandsIn gappedSource 7) ∧
        tokens.Pairwise fun token following => token.span.stop ≤ following.span.start := by
  have scan_eq : scan 7 gappedSource.chars =
      [⟨.word, "é", ⟨12, 14⟩⟩, ⟨.string, "\"a /*", ⟨19, 24⟩⟩] := by
    decide +kernel
  have fits : ∀ token ∈ scan 7 gappedSource.chars, token.span.stop < offsetBound := by
    rw [scan_eq]
    decide
  exact ⟨fits, scan?_lossless gappedSource 7 fits⟩

end JavaOutline.Token
