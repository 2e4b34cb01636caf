import JavaOutline.Proofs.Reading.Rendered
import JavaOutline.Proofs.Reading.Termination

/-!
# A label before a colon and before an arrow

Two texts have the tokens of a `case` label in common. A colon ends the label in the first text, an
arrow and an empty statement in the second, and the same tokens follow a closing brace. A parser
follows in the second text what another one reads in the first, as long as that does not read the
colon and its result opens no head: a head is a place of the label where a lambda begins if the
arrow is the arrow of a lambda, and a result opens it if it was read where a lambda may stand.
-/

namespace JavaOutline

/-- What ends a label in two texts that have all other tokens in common. -/
structure LabelEnds where
  colon : Token
  arrow : Token
  /-- The empty statement after the arrow. -/
  semicolon : Token
  /-- The end of the `switch`. -/
  brace : Token
  /-- The tokens after the `switch`. -/
  more : List Token
  is_colon : colon.kind = .colon
  is_arrow : arrow.kind = .arrow
  is_semicolon : semicolon.kind = .semicolon
  is_brace : brace.kind = .closeBrace
  start_eq : arrow.span.start = colon.span.start

namespace Parser

variable {α : Type} {parser : Parser (Option α)} {cursor : Cursor} {value : α}

/-- Runs a parser, and goes back if it finds nothing. -/
def attempt (parser : Parser (Option α)) : Parser (Option α) := do
  let before ← get
  match ← parser with
  | some value => return some value
  | none =>
    set before
    return none

theorem attempt_of_none (nothing : (parser cursor).1 = none) :
    attempt parser cursor = (none, cursor) := by
  simp [attempt, nothing]

theorem attempt_of_some (found : (parser cursor).1 = some value) :
    attempt parser cursor = (some value, (parser cursor).2) := by
  simp [attempt, found]

end Parser

namespace LabelEnds

variable {ends : LabelEnds} {cursor before after other : Cursor} {token : Token}
  {rest window : List Token} {behind : Nat}

/-- The tokens of the first text from the end of the label on. -/
def withColon (ends : LabelEnds) : List Token := ends.colon :: ends.brace :: ends.more

/-- The tokens of the second text from the end of the label on. -/
def withArrow (ends : LabelEnds) : List Token :=
  ends.arrow :: ends.semicolon :: ends.brace :: ends.more

/-- Whether a place of the first text stands in the label or at the colon. -/
def Inside (ends : LabelEnds) (cursor : Cursor) : Prop :=
  ends.more.length + 1 < cursor.rest.length

/-- Whether a place of the second text is that of a place of the first, in the label or at its
end. -/
def Mirrors (ends : LabelEnds) (cursor other : Cursor) : Prop :=
  ∃ window, cursor.rest = window ++ ends.withColon ∧
    other = ⟨window ++ ends.withArrow, cursor.behind⟩

/-- Whether the same is read from a place of the first text and a place of the second: the places
mirror each other, or they are the same place after the label. -/
def Abreast (ends : LabelEnds) (cursor other : Cursor) : Prop :=
  ends.Mirrors cursor other ∨ other = cursor ∧ ¬ends.Inside cursor

/-- Whether a place of the second text shows the same next tokens as a place of the first. -/
def Shows (ends : LabelEnds) (cursor other : Cursor) : Prop :=
  ends.Mirrors cursor other ∨ other = cursor

/-- Whether a lambda begins at a place in front of the arrow, and none in front of the colon. -/
def IsHead (ends : LabelEnds) (head : Cursor) : Prop :=
  ∃ other, ends.Mirrors head other ∧ head.isAtLambda = false ∧ other.isAtLambda = true

section Follows

variable {α β : Type} {stays : Prop}

/-- Whether what was read from a place on opens no head that was passed. -/
def Silent (ends : LabelEnds) (opens : Cursor → α → Prop) (cursor : Cursor) (read : α × Cursor) :
    Prop :=
  ∀ head, ends.IsHead head → cursor.Reaches head → head.Reaches read.2 → ¬opens head read.1

/-- Whether a parser follows another one that reads the first text from a place on: it gives the
same result at the same place, if the other one does not read the colon and opens no head. If
`stays` holds, it does so even where the other one reads the colon. -/
def Follows (ends : LabelEnds) (stays : Prop) (opens : Cursor → α → Prop) (p q : Parser α)
    (cursor : Cursor) : Prop :=
  cursor.IsOrdered → cursor.Reaches (p cursor).2 ∧
    ∀ other, ends.Abreast cursor other → stays ∨ ends.Inside (p cursor).2 →
      ends.Silent opens cursor (p cursor) →
        (q other).1 = (p cursor).1 ∧ ends.Abreast (p cursor).2 (q other).2

/-- What holds no expression opens no head. -/
def OpensNone (_ : Cursor) (_ : α) : Prop := False

/-- Whether what was read, if anything was, opens a head. -/
def OpensSome (opens : Cursor → α → Prop) (head : Cursor) (result : Option α) : Prop :=
  ∃ value ∈ result, opens head value

/-- Whether one of some values opens a head. -/
def OpensAny (opens : Cursor → α → Prop) (head : Cursor) (values : List α) : Prop :=
  ∃ value ∈ values, opens head value

end Follows

/-! ## Places -/

theorem Inside.of_reaches (inside : ends.Inside after) (reaches : before.Reaches after) :
    ends.Inside before :=
  Nat.lt_of_lt_of_le inside reaches.length_le

theorem Mirrors.inside (mirrors : ends.Mirrors cursor other) : ends.Inside cursor := by
  obtain ⟨window, rest_eq, -⟩ := mirrors
  simp only [Inside, rest_eq, withColon, List.length_append, List.length_cons]
  omega

theorem Mirrors.abreast (mirrors : ends.Mirrors cursor other) : ends.Abreast cursor other :=
  .inl mirrors

theorem Mirrors.shows (mirrors : ends.Mirrors cursor other) : ends.Shows cursor other :=
  .inl mirrors

theorem Abreast.shows (abreast : ends.Abreast cursor other) : ends.Shows cursor other :=
  abreast.imp_right And.left

theorem Abreast.mirrors (abreast : ends.Abreast cursor other) (inside : ends.Inside cursor) :
    ends.Mirrors cursor other :=
  abreast.resolve_right fun past => past.2 inside

theorem Mirrors.exists_window (mirrors : ends.Mirrors cursor other) :
    ∃ window behind, cursor = ⟨window ++ ends.withColon, behind⟩ ∧
      other = ⟨window ++ ends.withArrow, behind⟩ := by
  obtain ⟨rest, behind⟩ := cursor
  obtain ⟨window, rest_eq, rfl⟩ := mirrors
  exact ⟨window, behind, congrArg (Cursor.mk · behind) rest_eq, rfl⟩

theorem mirrors_window (window : List Token) (behind : Nat) :
    ends.Mirrors ⟨window ++ ends.withColon, behind⟩ ⟨window ++ ends.withArrow, behind⟩ :=
  ⟨window, rfl, rfl⟩

/-- Only the colon is read without staying in the label. -/
theorem Mirrors.tail (mirrors : ends.Mirrors cursor other)
    (within : cursor.isAt .colon = false ∨ ends.Inside cursor.tail) :
    ends.Mirrors cursor.tail other.tail := by
  obtain ⟨window, behind, rfl, rfl⟩ := mirrors.exists_window
  cases window with
  | nil =>
      rcases within with within | within
      · simp [withColon, ends.is_colon] at within
      · simp [withColon, Inside] at within
  | cons token window => exact mirrors_window window token.span.stop

/-! ## What shows at a place -/

/-- What is said of the next token is said of it in both texts, if it is said of both ends of the
label or of neither. -/
theorem Shows.any_head?_eq (shows : ends.Shows cursor other) (p : Token → Bool)
    (same : p ends.arrow = p ends.colon) :
    other.rest.head?.any p = cursor.rest.head?.any p := by
  rcases shows with mirrors | rfl
  · obtain ⟨window, behind, rfl, rfl⟩ := mirrors.exists_window
    cases window with
    | nil => exact same
    | cons token window => rfl
  · rfl

theorem Shows.isAt_eq (shows : ends.Shows cursor other) (kind : TokenKind)
    (not_colon : kind ≠ .colon) (not_arrow : kind ≠ .arrow) :
    other.isAt kind = cursor.isAt kind := by
  refine shows.any_head?_eq _ ?_
  rw [ends.is_arrow, ends.is_colon, decide_eq_false not_colon.symm, decide_eq_false not_arrow.symm]

theorem Shows.isAtWord_eq (shows : ends.Shows cursor other) (word : String) :
    other.isAtWord word = cursor.isAtWord word := by
  refine shows.any_head?_eq _ ?_
  simp [Token.isWord, ends.is_arrow, ends.is_colon]

theorem Shows.isAtIdentifier_eq (shows : ends.Shows cursor other) :
    other.isAtIdentifier = cursor.isAtIdentifier := by
  refine shows.any_head?_eq _ ?_
  simp [ends.is_arrow, ends.is_colon]

theorem Shows.isAtOperand_eq (shows : ends.Shows cursor other) :
    other.isAtOperand = cursor.isAtOperand := by
  refine shows.any_head?_eq _ ?_
  simp [ends.is_arrow, ends.is_colon, TokenKind.isLiteral]

theorem Shows.atEnd_eq (shows : ends.Shows cursor other) : other.atEnd = cursor.atEnd := by
  rcases shows with mirrors | rfl
  · obtain ⟨window, behind, rfl, rfl⟩ := mirrors.exists_window
    cases window with
    | nil => rfl
    | cons token window => rfl
  · rfl

theorem Shows.behind_eq (shows : ends.Shows cursor other) : other.behind = cursor.behind := by
  rcases shows with ⟨window, -, rfl⟩ | rfl
  · rfl
  · rfl

theorem Shows.spanFrom_eq (shows : ends.Shows cursor other) (start : Nat) :
    other.spanFrom start = cursor.spanFrom start := by
  rw [Cursor.spanFrom, Cursor.spanFrom, shows.behind_eq]

theorem Shows.here_eq (shows : ends.Shows cursor other) : other.here = cursor.here := by
  rcases shows with mirrors | rfl
  · obtain ⟨window, behind, rfl, rfl⟩ := mirrors.exists_window
    cases window with
    | nil => exact ends.start_eq
    | cons token window => rfl
  · rfl

/-- The kind of the next token is the same in both texts, unless it is that of the ends. -/
theorem Shows.kindAhead?_zero (shows : ends.Shows cursor other) :
    other.kindAhead? 0 = cursor.kindAhead? 0 ∨
      cursor.kindAhead? 0 = some .colon ∧ other.kindAhead? 0 = some .arrow := by
  rcases shows with mirrors | rfl
  · obtain ⟨window, behind, rfl, rfl⟩ := mirrors.exists_window
    cases window with
    | nil => exact .inr ⟨congrArg some ends.is_colon, congrArg some ends.is_arrow⟩
    | cons token window => exact .inl rfl
  · exact .inl rfl

theorem Shows.isAhead_zero_eq (shows : ends.Shows cursor other) {kinds : List TokenKind}
    (not_colon : .colon ∉ kinds) (not_arrow : .arrow ∉ kinds) :
    other.isAhead 0 kinds = cursor.isAhead 0 kinds := by
  rw [Cursor.isAhead, Cursor.isAhead]
  rcases shows.kindAhead?_zero with same | ⟨colon, arrow⟩
  · rw [same]
  · simp [colon, arrow, not_colon, not_arrow]

/-- What is asked of the second token in front of a token that does not end the label. -/
theorem Shows.ahead?_one (shows : ends.Shows cursor other) (goes_on : cursor.isAt .colon = false) :
    other.ahead? 1 = cursor.ahead? 1 ∨
      cursor.ahead? 1 = some ends.colon ∧ other.ahead? 1 = some ends.arrow := by
  rcases shows with mirrors | rfl
  · obtain ⟨window, behind, rfl, rfl⟩ := mirrors.exists_window
    rcases window with _ | ⟨token, _ | ⟨next, window⟩⟩
    · simp [withColon, ends.is_colon] at goes_on
    · exact .inr ⟨rfl, rfl⟩
    · exact .inl rfl
  · exact .inl rfl

theorem Shows.isAhead_one_eq (shows : ends.Shows cursor other) {kinds : List TokenKind}
    (goes_on : cursor.isAt .colon = false) (not_colon : .colon ∉ kinds)
    (not_arrow : .arrow ∉ kinds) : other.isAhead 1 kinds = cursor.isAhead 1 kinds := by
  rw [Cursor.isAhead, Cursor.isAhead, Cursor.kindAhead?, Cursor.kindAhead?]
  rcases shows.ahead?_one goes_on with same | ⟨colon, arrow⟩
  · rw [same]
  · simp [colon, arrow, ends.is_colon, ends.is_arrow, not_colon, not_arrow]

theorem Shows.isWordAhead_one_eq (shows : ends.Shows cursor other) (word : String)
    (goes_on : cursor.isAt .colon = false) :
    other.isWordAhead 1 word = cursor.isWordAhead 1 word := by
  rw [Cursor.isWordAhead, Cursor.isWordAhead]
  rcases shows.ahead?_one goes_on with same | ⟨colon, arrow⟩
  · rw [same]
  · simp [colon, arrow, Token.isWord, ends.is_colon, ends.is_arrow]

/-- What is asked only at a token of a kind is asked in front of no colon. -/
theorem Shows.isAt_and_eq (shows : ends.Shows cursor other) {kind : TokenKind} {here there : Bool}
    (not_colon : kind ≠ .colon) (not_arrow : kind ≠ .arrow)
    (same : cursor.isAt .colon = false → there = here) :
    (other.isAt kind && there) = (cursor.isAt kind && here) := by
  rw [shows.isAt_eq kind not_colon not_arrow]
  cases found : cursor.isAt kind with
  | false => rfl
  | true => rw [same (Cursor.isAt_eq_false_of_isAt found _ not_colon)]

theorem Shows.isAtBrackets_eq (shows : ends.Shows cursor other) :
    other.isAtBrackets = cursor.isAtBrackets :=
  shows.isAt_and_eq nofun nofun fun goes_on => shows.isAhead_one_eq goes_on (by decide) (by decide)

theorem Shows.isAtClass_eq (shows : ends.Shows cursor other) :
    (other.isAt .dot && other.isWordAhead 1 "class") =
      (cursor.isAt .dot && cursor.isWordAhead 1 "class") :=
  shows.isAt_and_eq nofun nofun (shows.isWordAhead_one_eq "class")

theorem Shows.unaryOp?_eq (shows : ends.Shows cursor other) :
    other.unaryOp? = cursor.unaryOp? := by
  rw [Cursor.unaryOp?, Cursor.unaryOp?]
  rcases shows.kindAhead?_zero with same | ⟨colon, arrow⟩
  · rw [same]
  · rw [colon, arrow]

theorem Shows.updateOp?_eq (shows : ends.Shows cursor other) :
    other.updateOp? = cursor.updateOp? := by
  rw [Cursor.updateOp?, Cursor.updateOp?]
  rcases shows.kindAhead?_zero with same | ⟨colon, arrow⟩
  · rw [same]
  · rw [colon, arrow]

/-- An assignment operator ends before the label does. -/
theorem Shows.assignOp?_eq (shows : ends.Shows cursor other) :
    other.assignOp? = cursor.assignOp? := by
  rcases shows with mirrors | rfl
  · obtain ⟨window, behind, rfl, rfl⟩ := mirrors.exists_window
    rcases window with _ | ⟨first, _ | ⟨second, _ | ⟨third, window⟩⟩⟩ <;>
      simp [Cursor.assignOp?, Cursor.kindAhead?, Cursor.ahead?, Cursor.isAhead, Cursor.touches,
        withColon, withArrow, ends.is_colon, ends.is_arrow]
  · rfl

/-- A binary operator ends before the label does. -/
theorem Shows.binaryOp?_eq (shows : ends.Shows cursor other) :
    other.binaryOp? = cursor.binaryOp? := by
  rcases shows with mirrors | rfl
  · obtain ⟨window, behind, rfl, rfl⟩ := mirrors.exists_window
    rcases window with _ | ⟨first, _ | ⟨second, _ | ⟨third, window⟩⟩⟩
    case cons.cons.nil =>
      -- The end of the label stands third, where it matters only whether it is another `>`.
      simp only [Cursor.binaryOp?, Cursor.kindAhead?, Cursor.ahead?, Cursor.touches, withColon,
        withArrow, ends.is_colon, ends.is_arrow, ends.start_eq, List.cons_append,
        List.nil_append, List.getElem?_cons_zero, List.getElem?_cons_succ, Option.map_some]
      split
      case h_17 =>
        by_cases adjacent : first.span.stop = second.span.start
        · simp only [adjacent, decide_true, if_true]
          cases second.kind <;> split_ifs <;> rfl
        · simp [adjacent]
      all_goals rfl
    all_goals
      simp [Cursor.binaryOp?, Cursor.kindAhead?, Cursor.ahead?, Cursor.touches, withColon,
        withArrow, ends.is_colon, ends.is_arrow]
  · rfl

/-! ## Combining parsers -/

section Combine

variable {α β : Type} {stays : Prop} {opens opens' : Cursor → α → Prop} {opens₂ : Cursor → β → Prop}

open JavaOutline.Parser

theorem Silent.of_reaches {read : β × Cursor} (silent : ends.Silent opens₂ before read)
    (reaches : before.Reaches after) : ends.Silent opens₂ after read :=
  fun head is_head passed => silent head is_head (reaches.trans passed)

theorem silent_none (cursor : Cursor) (read : α × Cursor) : ends.Silent OpensNone cursor read :=
  fun _ _ _ _ => id

theorem Follows.of_ordered {p q : Parser α}
    (follows : cursor.IsOrdered → ends.Follows stays opens p q cursor) :
    ends.Follows stays opens p q cursor :=
  fun order => follows order order

theorem Follows.pure {value result : α} (same : result = value) :
    ends.Follows stays opens (pure value) (pure result) cursor :=
  fun _ => ⟨.refl, fun _ abreast _ _ => ⟨same, abreast⟩⟩

/-- A parser follows itself if it does so from places that mirror each other. -/
theorem Follows.of_mirrors {p : Parser α} (reaches : cursor.Reaches (p cursor).2)
    (same : ∀ other, ends.Mirrors cursor other → stays ∨ ends.Inside (p cursor).2 →
      (p other).1 = (p cursor).1 ∧ ends.Abreast (p cursor).2 (p other).2) :
    ends.Follows stays opens p p cursor := by
  refine fun _ => ⟨reaches, fun other abreast within _ => ?_⟩
  rcases abreast with mirrors | ⟨rfl, past⟩
  · exact same other mirrors within
  · exact ⟨rfl, .inr ⟨rfl, fun inside => past (inside.of_reaches reaches)⟩⟩

/-- Parsers that read the same follow each other the same. -/
theorem Follows.congr {p p' q q' : Parser α} (follows : ends.Follows stays opens p' q' cursor)
    (left : p cursor = p' cursor) (right : ∀ other, ends.Shows cursor other → q other = q' other) :
    ends.Follows stays opens p q cursor := by
  intro order
  rw [left]
  refine ⟨(follows order).1, fun other abreast => ?_⟩
  rw [right other abreast.shows]
  exact (follows order).2 other abreast

/-- What opens less follows more easily. -/
theorem Follows.weaken {p q : Parser α} (follows : ends.Follows stays opens p q cursor)
    (weaker : ∀ head value, opens head value → opens' head value) :
    ends.Follows stays opens' p q cursor := by
  intro order
  obtain ⟨reaches, same⟩ := follows order
  refine ⟨reaches, fun other abreast within silent => same other abreast within ?_⟩
  exact fun head is_head before after opened =>
    silent head is_head before after (weaker head _ opened)

/-- What is read first has to open only what the whole opens. -/
theorem Follows.bind_opens {p q : Parser α} {f g : α → Parser β}
    (first : ends.Follows stays opens p q cursor)
    (later : ∀ value after, p cursor = (value, after) → cursor.Reaches after →
      ends.Follows stays opens₂ (f value) (g value) after)
    (carry : ∀ value after, p cursor = (value, after) → cursor.Reaches after →
      stays ∨ ends.Inside (f value after).2 → ∀ head, ends.IsHead head → cursor.Reaches head →
        head.Reaches after → opens head value → opens₂ head (f value after).1) :
    ends.Follows stays opens₂ (p >>= f) (q >>= g) cursor := by
  intro order
  obtain ⟨reaches, same⟩ := first order
  obtain ⟨onward, same_later⟩ := later _ _ rfl reaches (order.reaches reaches)
  refine ⟨reaches.trans onward, fun other abreast within silent => ?_⟩
  have silent_first : ends.Silent opens cursor (p cursor) :=
    fun head is_head passed to_after opened => silent head is_head passed (to_after.trans onward)
      (carry _ _ rfl reaches within head is_head passed to_after opened)
  obtain ⟨value_eq, abreast⟩ :=
    same other abreast (within.imp_right (·.of_reaches onward)) silent_first
  change (g (q other).1 (q other).2).1 = _ ∧ ends.Abreast _ (g (q other).1 (q other).2).2
  rw [value_eq]
  exact same_later _ abreast within (silent.of_reaches reaches)

theorem Follows.bind {p q : Parser α} {f g : α → Parser β}
    (first : ends.Follows stays OpensNone p q cursor)
    (later : ∀ value after, p cursor = (value, after) → cursor.Reaches after →
      ends.Follows stays opens₂ (f value) (g value) after) :
    ends.Follows stays opens₂ (p >>= f) (q >>= g) cursor :=
  .bind_opens first later fun _ _ _ _ _ _ _ _ _ => False.elim

theorem Follows.discard {p q : Parser α} (follows : ends.Follows stays OpensNone p q cursor) :
    ends.Follows stays OpensNone (discard p) (discard q) cursor :=
  .bind (f := fun _ => Pure.pure ()) (g := fun _ => Pure.pure ()) follows fun _ _ _ _ => .pure rfl

theorem Follows.ite {condition : Prop} [Decidable condition] {p p' q q' : Parser α}
    (whenTrue : condition → ends.Follows stays opens p q cursor)
    (whenFalse : ¬condition → ends.Follows stays opens p' q' cursor) :
    ends.Follows stays opens (if condition then p else p') (if condition then q else q')
      cursor := by
  split
  · next holds => exact whenTrue holds
  · next fails => exact whenFalse fails

/-- A choice between two ways to read a value that goes on in the same way. -/
theorem Follows.ite_bind_opens {condition : Prop} [Decidable condition] {p p' q q' : Parser α}
    {f g : α → Parser β} (whenTrue : condition → ends.Follows stays opens p q cursor)
    (whenFalse : ¬condition → ends.Follows stays opens p' q' cursor)
    (later : ∀ value after, (if condition then p else p') cursor = (value, after) →
      cursor.Reaches after → ends.Follows stays opens₂ (f value) (g value) after)
    (carry : ∀ value after, (if condition then p else p') cursor = (value, after) →
      cursor.Reaches after → stays ∨ ends.Inside (f value after).2 → ∀ head, ends.IsHead head →
        cursor.Reaches head → head.Reaches after → opens head value →
          opens₂ head (f value after).1) :
    ends.Follows stays opens₂ (if condition then p >>= f else p' >>= f)
      (if condition then q >>= g else q' >>= g) cursor := by
  refine .ite (fun holds => ?_) fun fails => ?_
  · rw [if_pos holds] at later carry
    exact .bind_opens (whenTrue holds) later carry
  · rw [if_neg fails] at later carry
    exact .bind_opens (whenFalse fails) later carry

theorem Follows.ite_bind {condition : Prop} [Decidable condition] {p p' q q' : Parser α}
    {f g : α → Parser β} (whenTrue : condition → ends.Follows stays OpensNone p q cursor)
    (whenFalse : ¬condition → ends.Follows stays OpensNone p' q' cursor)
    (later : ∀ value after, (if condition then p else p') cursor = (value, after) →
      cursor.Reaches after → ends.Follows stays opens₂ (f value) (g value) after) :
    ends.Follows stays opens₂ (if condition then p >>= f else p' >>= f)
      (if condition then q >>= g else q' >>= g) cursor :=
  .ite_bind_opens whenTrue whenFalse later fun _ _ _ _ _ _ _ _ _ => False.elim

/-- A parser that looks at the place sees the same in both texts. -/
theorem Follows.get {f g : Cursor → Parser α}
    (later : ∀ other, ends.Shows cursor other →
      ends.Follows stays opens (f cursor) (g other) cursor) :
    ends.Follows stays opens (get >>= f) (get >>= g) cursor :=
  fun order => ⟨(later cursor (.inr rfl) order).1, fun other abreast =>
    (later other abreast.shows order).2 other abreast⟩

/-- Going back where nothing is found leads to where both parsers began. -/
theorem Follows.attempt {p q : Parser (Option α)} {opens₃ : Cursor → Option α → Prop}
    (follows : ends.Follows True OpensNone p q cursor) :
    ends.Follows stays opens₃ (attempt p) (attempt q) cursor := by
  intro order
  obtain ⟨reaches, same⟩ := follows order
  cases found : (p cursor).1 with
  | none =>
      rw [attempt_of_none found]
      refine ⟨.refl, fun other abreast _ _ => ?_⟩
      obtain ⟨same_eq, -⟩ := same other abreast (.inl trivial) (silent_none _ _)
      rw [attempt_of_none (same_eq.trans found)]
      exact ⟨rfl, abreast⟩
  | some value =>
      rw [attempt_of_some found]
      refine ⟨reaches, fun other abreast _ _ => ?_⟩
      obtain ⟨same_eq, later⟩ := same other abreast (.inl trivial) (silent_none _ _)
      rw [attempt_of_some (same_eq.trans found)]
      exact ⟨rfl, later⟩

/-! ## Loops -/

/-- Whether each repetition of a step from a place on reads a token and opens what the last one
opened, as long as something holds of the value and the place. -/
structure Carries (ends : LabelEnds) (stays : Prop) (opens : Cursor → α → Prop)
    (holds : α → Cursor → Prop) (step : α → Parser (Option α)) (origin : Cursor) : Prop where
  advances (value : α) : Advances (step value)
  keeps {value result : α} {cursor : Cursor} (reaches : origin.Reaches cursor)
    (held : holds value cursor) (goes_on : (step value cursor).1 = some result) :
    holds result (step value cursor).2
  carries {value result : α} {cursor head : Cursor} (reaches : origin.Reaches cursor)
    (held : holds value cursor) (goes_on : (step value cursor).1 = some result)
    (within : stays ∨ ends.Inside (step value cursor).2) (is_head : ends.IsHead head)
    (begun : origin.Reaches head) (passed : head.Reaches cursor) (opened : opens head value) :
    opens head result

section Loops

variable {holds : α → Cursor → Prop} {step step' : α → Parser (Option α)} {origin head : Cursor}
  {value : α}

theorem reaches_iterateUpTo (advances : ∀ value, Advances (step value)) (n : Nat) (value : α)
    (cursor : Cursor) : cursor.Reaches (iterateUpTo step n value cursor).2 := by
  induction n generalizing value cursor with
  | zero => exact .refl
  | succ n induction =>
      have onward := (advances value cursor).1
      cases read : (step value cursor).1 with
      | none => rwa [iterateUpTo_of_none read]
      | some result =>
          rw [iterateUpTo_of_some read]
          exact onward.trans (induction result _)

/-- What is opened before a loop is opened after it. -/
theorem Carries.iterateUpTo (carries : ends.Carries stays opens holds step origin) {n : Nat}
    (reaches : origin.Reaches cursor) (held : holds value cursor)
    (within : stays ∨ ends.Inside (iterateUpTo step n value cursor).2) (is_head : ends.IsHead head)
    (begun : origin.Reaches head) (passed : head.Reaches cursor) (opened : opens head value) :
    opens head (iterateUpTo step n value cursor).1 := by
  induction n generalizing value cursor with
  | zero => exact opened
  | succ n induction =>
      have onward := (carries.advances value cursor).1
      cases read : (step value cursor).1 with
      | none => rwa [iterateUpTo_of_none read]
      | some result =>
          rw [iterateUpTo_of_some read] at within ⊢
          have later := reaches_iterateUpTo carries.advances n result (step value cursor).2
          refine induction (reaches.trans onward) (carries.keeps reaches held read) within
            (passed.trans onward) ?_
          exact carries.carries reaches held read (within.imp_right (·.of_reaches later)) is_head
            begun passed opened

theorem Follows.iterateUpTo (carries : ends.Carries stays opens holds step origin)
    (follows : ∀ value after, origin.Reaches after → holds value after →
      ends.Follows stays (OpensSome opens) (step value) (step' value) after)
    (n : Nat) (reaches : origin.Reaches cursor) (held : holds value cursor) :
    ends.Follows stays opens (iterateUpTo step n value) (iterateUpTo step' n value) cursor := by
  induction n generalizing value cursor with
  | zero => exact .pure rfl
  | succ n induction =>
      refine .bind_opens (follows value cursor reaches held) (fun result after read onward => ?_)
        fun result after read onward within head is_head begun passed opened => ?_
      · cases result with
        | none => exact .pure rfl
        | some result =>
            obtain ⟨goes_on, rfl⟩ := Prod.mk.inj read
            exact induction (reaches.trans onward) (carries.keeps reaches held goes_on)
      · obtain ⟨result, rfl, opened⟩ := opened
        obtain ⟨goes_on, rfl⟩ := Prod.mk.inj read
        exact carries.iterateUpTo (reaches.trans onward) (carries.keeps reaches held goes_on)
          within is_head (reaches.trans begun) passed opened

/-- Both texts leave a loop after as many repetitions. -/
theorem Follows.loop (carries : ends.Carries stays opens holds step cursor)
    (advances : ∀ value, Advances (step' value)) (held : holds value cursor)
    (follows : ∀ value after, cursor.Reaches after → holds value after →
      ends.Follows stays (OpensSome opens) (step value) (step' value) after) :
    ends.Follows stays opens (iterate step value) (iterate step' value) cursor := by
  intro order
  have upTo (n : Nat) := Follows.iterateUpTo carries follows n .refl held order
  refine ⟨(upTo (cursor.rest.length + 1)).1, fun other abreast => ?_⟩
  -- One bound is enough for both texts.
  have left : cursor.rest.length < cursor.rest.length + other.rest.length + 1 := by omega
  have right : other.rest.length < cursor.rest.length + other.rest.length + 1 := by omega
  rw [← iterateUpTo_eq_iterate carries.advances left, ← iterateUpTo_eq_iterate advances right]
  exact (upTo _).2 other abreast

end Loops

section Many

variable {step step' : Parser (Option α)}

theorem Follows.pushed (follows : ends.Follows stays (OpensSome opens) step step' cursor)
    (values : List α) : ends.Follows stays (OpensSome (OpensAny opens)) (pushed step values)
      (pushed step' values) cursor := by
  refine .bind_opens (f := fun result => Pure.pure (result.map fun value => values ++ [value]))
    (g := fun result => Pure.pure (result.map fun value => values ++ [value])) follows
    (fun _ _ _ _ => .pure rfl) fun result after read _ _ head _ _ _ opened => ?_
  obtain ⟨value, rfl, opened⟩ := opened
  exact ⟨values ++ [value], rfl, value, by simp, opened⟩

theorem Follows.many (advances : Advances step) (advances' : Advances step')
    (follows : ∀ after, cursor.Reaches after →
      ends.Follows stays (OpensSome opens) step step' after) :
    ends.Follows stays (OpensAny opens) (many step) (many step') cursor := by
  rw [many_eq_iterate, many_eq_iterate]
  have carries : ends.Carries stays (OpensAny opens) (fun _ _ => True) (Parser.pushed step)
      cursor :=
    { advances := advances_pushed advances
      keeps := fun _ _ _ => trivial
      carries := by
        intro values result after head _ _ goes_on _ _ _ _ opened
        have result_eq : (step after).1.map (fun value => values ++ [value]) = some result :=
          goes_on
        obtain ⟨value, -, rfl⟩ := Option.map_eq_some_iff.mp result_eq
        obtain ⟨found, member, opened⟩ := opened
        exact ⟨found, List.mem_append_left _ member, opened⟩ }
  exact .loop carries (advances_pushed advances') trivial fun values after reaches _ =>
    (follows after reaches).pushed values

theorem Follows.repeatWhile {step step' : Parser Bool} (advances : Advances (whileStep step))
    (advances' : Advances (whileStep step'))
    (follows : ∀ after, cursor.Reaches after → ends.Follows stays OpensNone step step' after) :
    ends.Follows stays OpensNone (repeatWhile step) (repeatWhile step') cursor := by
  have steps (after : Cursor) (reaches : cursor.Reaches after) :
      ends.Follows stays (OpensSome OpensNone) (whileStep step) (whileStep step') after :=
    .bind (follows after reaches) fun _ _ _ _ => .pure rfl
  refine .discard ((Follows.many advances advances' steps).weaken fun head values opened => ?_)
  exact opened.elim fun _ found => found.2

end Many

end Combine

end LabelEnds

end JavaOutline
