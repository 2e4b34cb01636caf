import Mathlib
import JavaOutline.Proofs.Java.Relocation
import JavaOutline.Proofs.Reading.Progress

/-!
# Reading two texts side by side

Two texts have a stretch of tokens in common, which stand at other offsets in the second, and go on
differently after it. The stretch either is all there is or ends in a closing brace. A parser agrees
on the two texts if it gives on the second what it gives on the first, with the offsets moved, as
long as the first is not read beyond the common stretch.
-/

set_option mvcgen.warning false

open Std.Do

namespace JavaOutline

open Relocatable (relocate)

namespace Cursor

variable {before after : Cursor}

/-- Of the places after the last token there is only one. -/
theorem Reaches.eq_of_nil (reaches : before.Reaches after) (rest_eq : before.rest = []) :
    after = before := by
  induction reaches with
  | refl => rfl
  | tail _ induction => rw [induction, Cursor.tail, rest_eq]

theorem Reaches.eq_or_tail (reaches : before.Reaches after) :
    after = before ∨ before.tail.Reaches after := by
  induction reaches with
  | refl => exact .inl rfl
  | tail _ induction =>
      rcases induction with rfl | later
      · exact .inr .refl
      · exact .inr later.tail

end Cursor

/-- Two texts with tokens in common. -/
structure Parallel where
  /-- Where an offset of the first text is in the second. -/
  move : Nat → Nat
  /-- The order of offsets is kept. -/
  monotone : Monotone move
  /-- The tokens of the first text after the common ones. -/
  old : List Token
  /-- The tokens of the second text after the common ones. -/
  new : List Token

/-- Whether moving tokens keeps each of them non-empty, and keeps apart what follows a `>` without
touching it. -/
def Token.KeptBy (move : Nat → Nat) : List Token → Prop
  | [] => True
  | token :: rest =>
    move token.span.start < move token.span.stop ∧
      (token.kind = .greater → ∀ following ∈ rest.head?,
        (move token.span.stop = move following.span.start ↔
          token.span.stop = following.span.start)) ∧
      KeptBy move rest

theorem Token.KeptBy.of_append {move : Nat → Nat} {tokens more : List Token}
    (kept : Token.KeptBy move (tokens ++ more)) : Token.KeptBy move tokens := by
  induction tokens with
  | nil => trivial
  | cons token tokens induction =>
      obtain ⟨start_lt, touching, later⟩ := kept
      refine ⟨start_lt, fun greater following next => ?_, induction later⟩
      refine touching greater following ?_
      exact List.mem_head?_append_of_mem_head? next

/-- A `>` that touches the next token still does after moving, and only then. -/
theorem Token.KeptBy.touches_iff {move : Nat → Nat} {tokens : List Token}
    (kept : Token.KeptBy move tokens) {n : Nat} {token following : Token}
    (first : tokens[n]? = some token) (second : tokens[n + 1]? = some following)
    (greater : token.kind = .greater) :
    move token.span.stop = move following.span.start ↔
      token.span.stop = following.span.start := by
  induction tokens generalizing n with
  | nil => cases first
  | cons head tokens induction =>
      obtain ⟨-, touching, kept⟩ := kept
      cases n with
      | zero =>
          obtain rfl : head = token := Option.some.inj first
          exact touching greater following (by rwa [List.head?_eq_getElem?])
      | succ n => exact induction kept first second

/-- Whether a place in one text and a place in another stand before tokens in common, with `old` and
`new` after them. -/
def Cursor.Beside (move : Nat → Nat) (old new : List Token) (cursor other : Cursor) : Prop :=
  ∃ window, cursor.rest = window ++ old ∧
    other = ⟨relocate move window ++ new, move cursor.behind⟩ ∧
    (old = [] ∧ new = [] ∨
      ∃ inner brace, window = inner ++ [brace] ∧ brace.kind = .closeBrace)

namespace Parallel

variable {texts : Parallel} {α β : Type} [Relocatable α] [Relocatable β]
  {stays : Prop} {cursor before after other : Cursor}

/-- Whether a place of the first text stands before common tokens, or the texts do not differ. -/
def Inside (texts : Parallel) (cursor : Cursor) : Prop :=
  texts.old = [] ∧ texts.new = [] ∨ texts.old.length < cursor.rest.length

/-- Whether the tokens still to be read are in order and may be moved. -/
structure Tame (texts : Parallel) (cursor : Cursor) : Prop where
  order : cursor.IsOrdered
  kept : Token.KeptBy texts.move cursor.rest

/-- Whether a place of the second text is that of a place of the first. No annotation that begins in
the common stretch may end after it. -/
structure Mirrors (texts : Parallel) (cursor other : Cursor) : Prop where
  beside : cursor.Beside texts.move texts.old texts.new other
  annotations : ∀ after, cursor.Reaches after → texts.Inside after → after.isAt .atSign →
    texts.Inside ( Parser.skipAnnotation after).2

/-- Whether a place of the second text shows the same next tokens as a place of the first. -/
def Shows (texts : Parallel) (cursor other : Cursor) : Prop :=
  ∃ old new, cursor.Beside texts.move old new other

/-- Whether two parsers agree at a place of the first text: if the first does not read beyond the
common stretch, the second gives the same at the place that mirrors it. If `stays` holds, the first
has to remain in the common stretch. -/
def Agree (texts : Parallel) (stays : Prop) (p q : Parser α) (cursor : Cursor) : Prop :=
  texts.Tame cursor → cursor.Reaches (p cursor).2 ∧
    ∀ other, texts.Mirrors cursor other → stays ∨ texts.Inside (p cursor).2 →
      (q other).1 = relocate texts.move (p cursor).1 ∧
        texts.Mirrors (p cursor).2 (q other).2

/-! ## Places -/

theorem Tame.tail (tame : texts.Tame cursor) : texts.Tame cursor.tail := by
  obtain ⟨rest, behind⟩ := cursor
  cases rest with
  | nil => exact tame
  | cons token rest => exact ⟨tame.order.reaches (.tail .refl), tame.kept.2.2⟩

theorem Tame.reaches (tame : texts.Tame before) (reaches : before.Reaches after) :
    texts.Tame after := by
  induction reaches with
  | refl => exact tame
  | tail _ induction => exact induction.tail

theorem Inside.of_reaches (inside : texts.Inside after) (reaches : before.Reaches after) :
    texts.Inside before := by
  rcases inside with whole | more
  · exact .inl whole
  · exact .inr (Nat.lt_of_lt_of_le more reaches.length_le)

theorem Mirrors.inside (mirrors : texts.Mirrors cursor other) : texts.Inside cursor := by
  obtain ⟨window, rest_eq, -, whole | ⟨inner, brace, rfl, -⟩⟩ := mirrors.beside
  · exact .inl whole
  · refine .inr ?_
    rw [rest_eq, List.length_append, List.length_append]
    exact Nat.lt_add_of_pos_left (Nat.succ_pos _)

theorem Mirrors.shows (mirrors : texts.Mirrors cursor other) : texts.Shows cursor other :=
  ⟨_, _, mirrors.beside⟩

/-- The two texts have the same number of tokens in common. -/
theorem Mirrors.length_eq (mirrors : texts.Mirrors cursor other) :
    other.rest.length + texts.old.length = cursor.rest.length + texts.new.length := by
  obtain ⟨window, rest_eq, rfl, -⟩ := mirrors.beside
  have window_length : (relocate texts.move window).length = window.length := List.length_map _
  rw [rest_eq, List.length_append, List.length_append, window_length]
  omega

theorem Mirrors.nil {behind : Nat} (mirrors : texts.Mirrors ⟨[], behind⟩ other) :
    other = ⟨[], texts.move behind⟩ := by
  obtain ⟨window, rest_eq, rfl, seam⟩ := mirrors.beside
  obtain ⟨rfl, old_eq⟩ := List.append_eq_nil_iff.mp rest_eq.symm
  rcases seam with ⟨-, new_eq⟩ | ⟨inner, brace, impossible, -⟩
  · rw [new_eq]
    rfl
  · simp at impossible

theorem Mirrors.cons {token : Token} {rest : List Token} {behind : Nat}
    (mirrors : texts.Mirrors ⟨token :: rest, behind⟩ other)
    (inside : texts.Inside ⟨rest, token.span.stop⟩) :
    ∃ more, other = ⟨relocate texts.move token :: more, texts.move behind⟩ ∧
      texts.Mirrors ⟨rest, token.span.stop⟩ ⟨more, texts.move token.span.stop⟩ := by
  have annotations (after : Cursor) (reaches : Cursor.Reaches ⟨rest, token.span.stop⟩ after) :=
    mirrors.annotations after (Cursor.reaches_cons reaches)
  obtain ⟨window, rest_eq, rfl, seam⟩ := mirrors.beside
  cases window with
  | nil =>
      rcases seam with ⟨old_eq, -⟩ | ⟨inner, brace, impossible, -⟩
      · rw [old_eq] at rest_eq
        cases rest_eq
      · simp at impossible
  | cons first window =>
      obtain ⟨rfl, later_eq⟩ := List.cons.inj rest_eq
      refine ⟨_, rfl, ⟨window, later_eq, rfl, ?_⟩, annotations⟩
      rcases seam with whole | ⟨inner, brace, window_eq, kind_eq⟩
      · exact .inl whole
      · rcases inside with whole | more
        · exact .inl whole
        · cases inner with
          | nil =>
              obtain ⟨-, rfl⟩ := List.cons.inj window_eq
              exact absurd (congrArg List.length later_eq) (Nat.ne_of_gt more)
          | cons _ inner => exact .inr ⟨inner, brace, (List.cons.inj window_eq).2, kind_eq⟩

theorem Mirrors.tail (mirrors : texts.Mirrors cursor other) (inside : texts.Inside cursor.tail) :
    texts.Mirrors cursor.tail other.tail := by
  obtain ⟨rest, behind⟩ := cursor
  cases rest with
  | nil =>
      obtain rfl := mirrors.nil
      exact mirrors
  | cons token rest =>
      obtain ⟨more, rfl, later⟩ := mirrors.cons inside
      exact later

/-- Only a closing brace can be the last of the common tokens. -/
theorem Mirrors.inside_tail (mirrors : texts.Mirrors cursor other)
    (open_ : ¬ cursor.isAt .closeBrace) : texts.Inside cursor.tail := by
  obtain ⟨rest, behind⟩ := cursor
  obtain ⟨window, rest_eq, rfl, whole | ⟨inner, brace, rfl, kind_eq⟩⟩ := mirrors.beside
  · exact .inl whole
  · cases inner with
    | nil =>
        refine (open_ ?_).elim
        simp only [Cursor.isAt, show rest = brace :: texts.old from rest_eq]
        simpa using kind_eq
    | cons token inner =>
        refine .inr ?_
        rw [Cursor.tail, show rest = token :: (inner ++ [brace] ++ texts.old) from rest_eq]
        rw [List.length_append, List.length_append]
        exact Nat.lt_add_of_pos_left (Nat.succ_pos _)

/-! ## What shows at a place -/

theorem Shows.rest_nil (shows : texts.Shows cursor other) (rest_eq : cursor.rest = []) :
    other.rest = [] := by
  obtain ⟨old, new, window, window_eq, rfl, seam⟩ := shows
  obtain ⟨rfl, old_eq⟩ := List.append_eq_nil_iff.mp (window_eq.symm.trans rest_eq)
  rcases seam with ⟨-, new_eq⟩ | ⟨inner, brace, impossible, -⟩
  · rw [new_eq]
    rfl
  · simp at impossible

theorem Shows.rest_cons (shows : texts.Shows cursor other) {token : Token} {rest : List Token}
    (rest_eq : cursor.rest = token :: rest) :
    ∃ more, other.rest = relocate texts.move token :: more := by
  obtain ⟨old, new, window, window_eq, rfl, seam⟩ := shows
  cases window with
  | nil =>
      rcases seam with ⟨old_eq, -⟩ | ⟨inner, brace, impossible, -⟩
      · rw [window_eq, old_eq] at rest_eq
        cases rest_eq
      · simp at impossible
  | cons first window =>
      obtain ⟨rfl, -⟩ := List.cons.inj (window_eq.symm.trans rest_eq)
      exact ⟨_, rfl⟩

/-- A token that no closing brace stands before is common. -/
theorem Shows.ahead?_eq (shows : texts.Shows cursor other) {n : Nat}
    (clear : ∀ i < n, cursor.kindAhead? i ≠ some .closeBrace) :
    other.ahead? n = relocate texts.move (cursor.ahead? n) := by
  obtain ⟨old, new, window, window_eq, rfl, seam⟩ := shows
  have relocated : (relocate texts.move window)[n]? = relocate texts.move window[n]? :=
    List.getElem?_map
  have length_eq : (relocate texts.move window).length = window.length := List.length_map _
  rw [Cursor.ahead?, Cursor.ahead?, window_eq]
  rcases seam with ⟨rfl, rfl⟩ | ⟨inner, brace, rfl, kind_eq⟩
  · rw [List.append_nil, List.append_nil, relocated]
  · have n_lt : n < (inner ++ [brace]).length := by
      by_contra beyond
      refine clear inner.length (by simp at beyond; omega) ?_
      rw [Cursor.kindAhead?, Cursor.ahead?, window_eq]
      simp [kind_eq]
    rw [List.getElem?_append_left n_lt, List.getElem?_append_left (length_eq ▸ n_lt), relocated]

theorem Shows.head?_eq (shows : texts.Shows cursor other) :
    other.rest.head? = relocate texts.move cursor.rest.head? := by
  rw [List.head?_eq_getElem?, List.head?_eq_getElem?]
  exact shows.ahead?_eq (n := 0) fun _ impossible => absurd impossible (Nat.not_lt_zero _)

/-- What is said of the next token without its span is said of it in both texts. -/
theorem Shows.any_head?_eq (shows : texts.Shows cursor other) (p : Token → Bool)
    (spanless : ∀ token, p (relocate texts.move token) = p token) :
    other.rest.head?.any p = cursor.rest.head?.any p := by
  rw [shows.head?_eq]
  cases cursor.rest.head? with
  | none => rfl
  | some token => exact spanless token

theorem Shows.isAt_eq (shows : texts.Shows cursor other) (kind : TokenKind) :
    other.isAt kind = cursor.isAt kind :=
  shows.any_head?_eq _ fun _ => rfl

theorem Shows.isAtWord_eq (shows : texts.Shows cursor other) (word : String) :
    other.isAtWord word = cursor.isAtWord word :=
  shows.any_head?_eq _ fun _ => rfl

theorem Shows.isAtIdentifier_eq (shows : texts.Shows cursor other) :
    other.isAtIdentifier = cursor.isAtIdentifier :=
  shows.any_head?_eq _ fun _ => rfl

theorem Shows.isAtOperand_eq (shows : texts.Shows cursor other) :
    other.isAtOperand = cursor.isAtOperand :=
  shows.any_head?_eq _ fun _ => rfl

theorem Shows.atEnd_eq (shows : texts.Shows cursor other) : other.atEnd = cursor.atEnd := by
  cases rest_eq : cursor.rest with
  | nil => rw [Cursor.atEnd, Cursor.atEnd, rest_eq, shows.rest_nil rest_eq]
  | cons token rest =>
      obtain ⟨more, other_eq⟩ := shows.rest_cons rest_eq
      rw [Cursor.atEnd, Cursor.atEnd, rest_eq, other_eq]
      rfl

theorem Shows.behind_eq (shows : texts.Shows cursor other) :
    other.behind = texts.move cursor.behind := by
  obtain ⟨old, new, window, -, rfl, -⟩ := shows
  rfl

theorem Shows.here_eq (shows : texts.Shows cursor other) : other.here = texts.move cursor.here := by
  cases rest_eq : cursor.rest with
  | nil =>
      rw [Cursor.here, Cursor.here, rest_eq, shows.rest_nil rest_eq]
      exact shows.behind_eq
  | cons token rest =>
      obtain ⟨more, other_eq⟩ := shows.rest_cons rest_eq
      rw [Cursor.here, Cursor.here, rest_eq, other_eq]
      rfl

theorem Shows.spanFrom_eq (shows : texts.Shows cursor other) (start : Nat) :
    other.spanFrom (texts.move start) = relocate texts.move (cursor.spanFrom start) := by
  have stop_eq := texts.monotone.map_max (a := cursor.behind) (b := start)
  rw [Cursor.spanFrom, shows.behind_eq, ← stop_eq]
  rfl

theorem Shows.kindAhead?_eq (shows : texts.Shows cursor other) {n : Nat}
    (clear : ∀ i < n, cursor.kindAhead? i ≠ some .closeBrace) :
    other.kindAhead? n = cursor.kindAhead? n := by
  rw [Cursor.kindAhead?, Cursor.kindAhead?, shows.ahead?_eq clear]
  cases cursor.ahead? n with
  | none => rfl
  | some token => rfl

theorem Shows.isAhead_eq (shows : texts.Shows cursor other) {n : Nat} (kinds : List TokenKind)
    (clear : ∀ i < n, cursor.kindAhead? i ≠ some .closeBrace) :
    other.isAhead n kinds = cursor.isAhead n kinds := by
  rw [Cursor.isAhead, Cursor.isAhead, shows.kindAhead?_eq clear]

theorem Shows.isWordAhead_eq (shows : texts.Shows cursor other) {n : Nat} (word : String)
    (clear : ∀ i < n, cursor.kindAhead? i ≠ some .closeBrace) :
    other.isWordAhead n word = cursor.isWordAhead n word := by
  rw [Cursor.isWordAhead, Cursor.isWordAhead, shows.ahead?_eq clear]
  cases cursor.ahead? n with
  | none => rfl
  | some token => rfl

/-- A token of which something is said that no closing brace fulfils is no closing brace. -/
theorem not_isAt_closeBrace_of_any {p : Token → Bool} (found : cursor.rest.head?.any p)
    (kind_ne : ∀ token, p token → token.kind ≠ .closeBrace) : ¬cursor.isAt .closeBrace := by
  obtain ⟨rest, behind⟩ := cursor
  cases rest with
  | nil => nofun
  | cons token rest => exact fun closed => kind_ne token found (of_decide_eq_true closed)

theorem not_isAt_closeBrace_of_isAt {kind : TokenKind} (found : cursor.isAt kind)
    (kind_ne : kind ≠ .closeBrace) : ¬cursor.isAt .closeBrace :=
  not_isAt_closeBrace_of_any found fun _ kind_eq => (of_decide_eq_true kind_eq).trans_ne kind_ne

theorem kind_ne_of_word {token : Token} {more : Bool}
    (word : (decide (token.kind = .word) && more) = true) : token.kind ≠ .closeBrace := by
  have kind_eq := of_decide_eq_true (Bool.and_eq_true_iff.mp word).1
  rw [kind_eq]
  decide

theorem not_isAt_closeBrace_of_isAtWord {word : String} (found : cursor.isAtWord word) :
    ¬cursor.isAt .closeBrace :=
  not_isAt_closeBrace_of_any found fun _ => kind_ne_of_word

theorem not_isAt_closeBrace_of_isAtIdentifier (found : cursor.isAtIdentifier) :
    ¬cursor.isAt .closeBrace :=
  not_isAt_closeBrace_of_any found fun _ => kind_ne_of_word

theorem clear_zero : ∀ i < 0, cursor.kindAhead? i ≠ some .closeBrace :=
  fun _ impossible => absurd impossible (Nat.not_lt_zero _)

theorem clear_succ {n : Nat} (clear : ∀ i < n, cursor.kindAhead? i ≠ some .closeBrace)
    (next : cursor.kindAhead? n ≠ some .closeBrace) :
    ∀ i < n + 1, cursor.kindAhead? i ≠ some .closeBrace := by
  intro i i_lt
  rcases Nat.lt_succ_iff_lt_or_eq.mp i_lt with earlier | rfl
  · exact clear i earlier
  · exact next

theorem clear_one (clear : ¬cursor.isAt .closeBrace) :
    ∀ i < 1, cursor.kindAhead? i ≠ some .closeBrace := by
  refine clear_succ clear_zero fun found => clear ?_
  obtain ⟨rest, behind⟩ := cursor
  cases rest with
  | nil => cases found
  | cons token rest => simpa [Cursor.isAt, Cursor.kindAhead?, Cursor.ahead?] using found

theorem Shows.isAhead_one_eq (shows : texts.Shows cursor other) (kinds : List TokenKind)
    (clear : ¬cursor.isAt .closeBrace) : other.isAhead 1 kinds = cursor.isAhead 1 kinds :=
  shows.isAhead_eq kinds (clear_one clear)

theorem Shows.isWordAhead_one_eq (shows : texts.Shows cursor other) (word : String)
    (clear : ¬cursor.isAt .closeBrace) : other.isWordAhead 1 word = cursor.isWordAhead 1 word :=
  shows.isWordAhead_eq word (clear_one clear)

/-- What is asked only at a token of a kind is asked in front of no closing brace. -/
theorem Shows.isAt_and_eq (shows : texts.Shows cursor other) (kind : TokenKind) {here there : Bool}
    (kind_ne : kind ≠ .closeBrace) (same : ¬cursor.isAt .closeBrace → there = here) :
    (other.isAt kind && there) = (cursor.isAt kind && here) := by
  rw [shows.isAt_eq]
  by_cases found : cursor.isAt kind
  · rw [same (not_isAt_closeBrace_of_isAt found kind_ne)]
  · rw [Bool.eq_false_iff.mpr found, Bool.false_and, Bool.false_and]

theorem Shows.isAtWord_and_eq (shows : texts.Shows cursor other) (word : String)
    {here there : Bool} (same : ¬cursor.isAt .closeBrace → there = here) :
    (other.isAtWord word && there) = (cursor.isAtWord word && here) := by
  rw [shows.isAtWord_eq]
  by_cases found : cursor.isAtWord word
  · rw [same (not_isAt_closeBrace_of_isAtWord found)]
  · rw [Bool.eq_false_iff.mpr found, Bool.false_and, Bool.false_and]

theorem Shows.isAt_and_isAhead_eq (shows : texts.Shows cursor other) (kind : TokenKind)
    (kinds : List TokenKind) (kind_ne : kind ≠ .closeBrace) :
    (other.isAt kind && other.isAhead 1 kinds) = (cursor.isAt kind && cursor.isAhead 1 kinds) :=
  shows.isAt_and_eq kind kind_ne (shows.isAhead_one_eq kinds)

theorem Shows.isAtWord_and_isAhead_eq (shows : texts.Shows cursor other) (word : String)
    (kinds : List TokenKind) :
    (other.isAtWord word && other.isAhead 1 kinds) =
      (cursor.isAtWord word && cursor.isAhead 1 kinds) :=
  shows.isAtWord_and_eq word (shows.isAhead_one_eq kinds)

theorem Shows.isAtIdentifier_and_isAhead_eq (shows : texts.Shows cursor other)
    (kinds : List TokenKind) :
    (other.isAtIdentifier && other.isAhead 1 kinds) =
      (cursor.isAtIdentifier && cursor.isAhead 1 kinds) := by
  rw [shows.isAtIdentifier_eq]
  by_cases found : cursor.isAtIdentifier
  · rw [shows.isAhead_one_eq kinds (not_isAt_closeBrace_of_isAtIdentifier found)]
  · rw [Bool.eq_false_iff.mpr found, Bool.false_and, Bool.false_and]

theorem Shows.isAtBrackets_eq (shows : texts.Shows cursor other) :
    other.isAtBrackets = cursor.isAtBrackets :=
  shows.isAt_and_isAhead_eq .openBracket [.closeBracket] nofun

/-! ## Combining parsers -/

theorem Agree.pure {value result : α} (same : result = relocate texts.move value) :
    texts.Agree stays (pure value) (pure result) cursor :=
  fun _ => ⟨.refl, fun _ mirrors _ => ⟨same, mirrors⟩⟩

theorem Agree.of_tame {p q : Parser α}
    (agree : texts.Tame cursor → texts.Agree stays p q cursor) : texts.Agree stays p q cursor :=
  fun tame => agree tame tame

/-- Beyond the common stretch nothing has to agree. -/
theorem Agree.of_outside {p q : Parser α} (reaches : cursor.Reaches (p cursor).2)
    (outside : ¬texts.Inside cursor) : texts.Agree stays p q cursor :=
  fun _ => ⟨reaches, fun _ mirrors _ => absurd mirrors.inside outside⟩

theorem Agree.bind {p q : Parser α} {f g : α → Parser β} (first : texts.Agree stays p q cursor)
    (later : ∀ value after, p cursor = (value, after) → cursor.Reaches after →
      texts.Agree stays (f value) (g (relocate texts.move value)) after) :
    texts.Agree stays (p >>= f) (q >>= g) cursor := by
  intro tame
  obtain ⟨reaches, same⟩ := first tame
  obtain ⟨onward, same_later⟩ := later _ _ rfl reaches (tame.reaches reaches)
  refine ⟨reaches.trans onward, fun other mirrors within => ?_⟩
  obtain ⟨value_eq, mirrors⟩ := same other mirrors (within.imp_right (·.of_reaches onward))
  rw [← value_eq] at same_later
  exact same_later _ mirrors within

theorem Agree.bind_option {p q : Parser (Option α)} {f g : Option α → Parser β}
    (first : texts.Agree stays p q cursor)
    (absent : ∀ after, p cursor = (none, after) → cursor.Reaches after →
      texts.Agree stays (f none) (g none) after)
    (present : ∀ value after, p cursor = (some value, after) → cursor.Reaches after →
      texts.Agree stays (f (some value)) (g (some (relocate texts.move value))) after) :
    texts.Agree stays (p >>= f) (q >>= g) cursor := by
  refine .bind first fun value after read reaches => ?_
  cases value with
  | none => exact absent after read reaches
  | some value => exact present value after read reaches

theorem Agree.bind_bool {p q : Parser Bool} {f g : Bool → Parser β}
    (first : texts.Agree stays p q cursor)
    (whenTrue : ∀ after, p cursor = (true, after) → cursor.Reaches after →
      texts.Agree stays (f true) (g true) after)
    (whenFalse : ∀ after, p cursor = (false, after) → cursor.Reaches after →
      texts.Agree stays (f false) (g false) after) :
    texts.Agree stays (p >>= f) (q >>= g) cursor := by
  refine .bind first fun value after read reaches => ?_
  cases value with
  | true => exact whenTrue after read reaches
  | false => exact whenFalse after read reaches

theorem Agree.map {p q : Parser α} {f g : α → β} (agree : texts.Agree stays p q cursor)
    (same : ∀ value, g (relocate texts.move value) = relocate texts.move (f value)) :
    texts.Agree stays (f <$> p) (g <$> q) cursor :=
  Agree.bind (f := fun value => Pure.pure (f value)) (g := fun value => Pure.pure (g value)) agree
    fun value _ _ _ => .pure (same value)

theorem Agree.discard {p q : Parser α} (agree : texts.Agree stays p q cursor) :
    texts.Agree stays (discard p) (discard q) cursor :=
  agree.map (f := fun _ => ()) (g := fun _ => ()) fun _ => rfl

theorem Agree.ite {condition : Prop} [Decidable condition] {p p' q q' : Parser α}
    (whenTrue : condition → texts.Agree stays p q cursor)
    (whenFalse : ¬condition → texts.Agree stays p' q' cursor) :
    texts.Agree stays (if condition then p else p') (if condition then q else q') cursor := by
  split
  · next holds => exact whenTrue holds
  · next fails => exact whenFalse fails

/-- A text shows the same as itself at other offsets. -/
theorem shows_relocate (cursor : Cursor) :
    texts.Shows cursor ⟨relocate texts.move cursor.rest, texts.move cursor.behind⟩ :=
  ⟨[], [], cursor.rest, (List.append_nil _).symm, by rw [List.append_nil], .inl ⟨rfl, rfl⟩⟩

/-- A parser that looks at the place sees the same in both texts. -/
theorem Agree.get {f g : Cursor → Parser α}
    (later : ∀ other, texts.Tame cursor → texts.Shows cursor other →
      texts.Agree stays (f cursor) (g other) cursor) :
    texts.Agree stays (get >>= f) (get >>= g) cursor := by
  intro tame
  refine ⟨(later _ tame (shows_relocate cursor) tame).1, fun other mirrors within => ?_⟩
  exact (later other tame mirrors.shows tame).2 other mirrors within

theorem Agree.spanFrom (start : Nat) :
    texts.Agree stays (Parser.spanFrom start) (Parser.spanFrom (texts.move start)) cursor :=
  fun _ => ⟨.refl, fun _ mirrors _ => ⟨mirrors.shows.spanFrom_eq start, mirrors⟩⟩

/-- A choice between two ways to read a value that goes on in the same way. -/
theorem Agree.ite_bind {condition : Prop} [Decidable condition] {p p' q q' : Parser α}
    {f g : α → Parser β} (whenTrue : condition → texts.Agree stays p q cursor)
    (whenFalse : ¬condition → texts.Agree stays p' q' cursor)
    (later : ∀ value after, (if condition then p else p') cursor = (value, after) →
      cursor.Reaches after →
        texts.Agree stays (f value) (g (relocate texts.move value)) after) :
    texts.Agree stays (if condition then p >>= f else p' >>= f)
      (if condition then q >>= g else q' >>= g) cursor := by
  refine .ite (fun holds => ?_) fun fails => ?_
  · rw [if_pos holds] at later
    exact (whenTrue holds).bind later
  · rw [if_neg fails] at later
    exact (whenFalse fails).bind later

/-! ## Going back -/

/-- Whether two parsers agree after a look ahead that began at `origin` and may go back there. -/
def Resume (texts : Parallel) (stays : Prop) (origin origin' : Cursor) (p q : Parser α)
    (cursor : Cursor) : Prop :=
  texts.Tame origin → origin.Reaches cursor → origin.Reaches (p cursor).2 ∧
    ∀ other, texts.Mirrors origin origin' → texts.Mirrors cursor other →
      stays ∨ texts.Inside (p cursor).2 →
        (q other).1 = relocate texts.move (p cursor).1 ∧
          texts.Mirrors (p cursor).2 (q other).2

section Resume

variable {origin origin' : Cursor}

theorem Agree.resume {p q : Parser α} (agree : texts.Agree stays p q cursor) :
    texts.Resume stays origin origin' p q cursor := by
  intro tame reaches
  obtain ⟨onward, same⟩ := agree (tame.reaches reaches)
  exact ⟨reaches.trans onward, fun other _ => same other⟩

/-- A parser that looks ahead from where it begins. -/
theorem Agree.look {f g : Cursor → Parser α}
    (later : ∀ other, texts.Tame cursor → texts.Shows cursor other →
      texts.Resume stays cursor other (f cursor) (g other) cursor) :
    texts.Agree stays (MonadState.get >>= f) (MonadState.get >>= g) cursor := by
  intro tame
  refine ⟨(later _ tame (shows_relocate cursor) tame .refl).1, fun other mirrors within => ?_⟩
  exact (later other tame mirrors.shows tame .refl).2 other mirrors mirrors within

/-- Going back to where looking ahead began. -/
theorem Resume.restore {f g : Unit → Parser α} (agree : texts.Agree stays (f ()) (g ()) origin) :
    texts.Resume stays origin origin' (set origin >>= f) (set origin' >>= g) cursor := by
  intro tame _
  obtain ⟨onward, same⟩ := agree tame
  exact ⟨onward, fun _ mirrors _ => same origin' mirrors⟩

theorem Resume.bind {p q : Parser α} {f g : α → Parser β} (first : texts.Agree True p q cursor)
    (later : ∀ value after, p cursor = (value, after) → cursor.Reaches after →
      texts.Resume stays origin origin' (f value) (g (relocate texts.move value)) after) :
    texts.Resume stays origin origin' (p >>= f) (q >>= g) cursor := by
  intro tame reaches
  obtain ⟨onward, same⟩ := first (tame.reaches reaches)
  obtain ⟨onward', same_later⟩ := later _ _ rfl onward tame (reaches.trans onward)
  refine ⟨onward', fun other mirrors mirrors' within => ?_⟩
  obtain ⟨value_eq, mirrors'⟩ := same other mirrors' (.inl trivial)
  rw [← value_eq] at same_later
  exact same_later _ mirrors mirrors' within

theorem Resume.bind_option {p q : Parser (Option α)} {f g : Option α → Parser β}
    (first : texts.Agree True p q cursor)
    (absent : ∀ after, p cursor = (none, after) → cursor.Reaches after →
      texts.Resume stays origin origin' (f none) (g none) after)
    (present : ∀ value after, p cursor = (some value, after) → cursor.Reaches after →
      texts.Resume stays origin origin' (f (some value)) (g (some (relocate texts.move value)))
        after) :
    texts.Resume stays origin origin' (p >>= f) (q >>= g) cursor := by
  refine .bind first fun value after read reaches => ?_
  cases value with
  | none => exact absent after read reaches
  | some value => exact present value after read reaches

theorem Resume.bind_bool {p q : Parser Bool} {f g : Bool → Parser β}
    (first : texts.Agree True p q cursor)
    (whenTrue : ∀ after, p cursor = (true, after) → cursor.Reaches after →
      texts.Resume stays origin origin' (f true) (g true) after)
    (whenFalse : ∀ after, p cursor = (false, after) → cursor.Reaches after →
      texts.Resume stays origin origin' (f false) (g false) after) :
    texts.Resume stays origin origin' (p >>= f) (q >>= g) cursor := by
  refine .bind first fun value after read reaches => ?_
  cases value with
  | true => exact whenTrue after read reaches
  | false => exact whenFalse after read reaches

theorem Resume.ite {condition : Prop} [Decidable condition] {p p' q q' : Parser α}
    (whenTrue : condition → texts.Resume stays origin origin' p q cursor)
    (whenFalse : ¬condition → texts.Resume stays origin origin' p' q' cursor) :
    texts.Resume stays origin origin' (if condition then p else p') (if condition then q else q')
      cursor := by
  split
  · next holds => exact whenTrue holds
  · next fails => exact whenFalse fails

theorem Resume.get {f g : Cursor → Parser α}
    (later : ∀ other, texts.Tame cursor → texts.Shows cursor other →
      texts.Resume stays origin origin' (f cursor) (g other) cursor) :
    texts.Resume stays origin origin' (get >>= f) (get >>= g) cursor := by
  intro tame reaches
  have tame' := tame.reaches reaches
  refine ⟨(later _ tame' (shows_relocate cursor) tame reaches).1,
    fun other mirrors mirrors' within => ?_⟩
  exact (later other tame' mirrors'.shows tame reaches).2 other mirrors mirrors' within

end Resume

/-! ## Repeating a step -/

theorem Mirrors.unique {other' : Cursor} (mirrors : texts.Mirrors cursor other)
    (mirrors' : texts.Mirrors cursor other') : other' = other := by
  obtain ⟨window, rest_eq, rfl, -⟩ := mirrors.beside
  obtain ⟨window', rest_eq', rfl, -⟩ := mirrors'.beside
  rw [List.append_cancel_right (rest_eq'.symm.trans rest_eq)]

/-- If the second text has ended, so has the first. -/
theorem Mirrors.rest_nil (mirrors : texts.Mirrors cursor other) (rest_eq : other.rest = []) :
    cursor.rest = [] := by
  obtain ⟨window, window_eq, rfl, seam⟩ := mirrors.beside
  obtain ⟨relocated_eq, -⟩ := List.append_eq_nil_iff.mp rest_eq
  obtain rfl := List.map_eq_nil_iff.mp relocated_eq
  rcases seam with ⟨old_eq, -⟩ | ⟨inner, brace, impossible, -⟩
  · rw [window_eq, old_eq]
    rfl
  · simp at impossible

section Iterate

variable {step step' : α → Parser (Option α)}

/-- Both texts leave a loop after as many repetitions, if every repetition reads a token or uses up
what `extra` says of the value. The tokens left then bound the repetitions. -/
theorem Agree.iterateUpTo (extra : α → Nat)
    (agree : ∀ value after, before.Reaches after →
      texts.Agree stays (step value) (step' (relocate texts.move value)) after)
    (reads : ∀ value cursor result, before.Reaches cursor → cursor.IsOrdered →
      (step value cursor).1 = some result →
        (step value cursor).2.rest.length + extra result < cursor.rest.length + extra value)
    {value : α} {n m : Nat} (reaches : before.Reaches cursor) (tame : texts.Tame cursor)
    (enough : cursor.rest.length + extra value ≤ n) :
    cursor.Reaches (Parser.iterateUpTo step n value cursor).2 ∧
      ∀ other, texts.Mirrors cursor other → other.rest.length + extra value ≤ m →
        stays ∨ texts.Inside (Parser.iterateUpTo step n value cursor).2 →
        (Parser.iterateUpTo step' m (relocate texts.move value) other).1 =
            relocate texts.move (Parser.iterateUpTo step n value cursor).1 ∧
          texts.Mirrors (Parser.iterateUpTo step n value cursor).2
            (Parser.iterateUpTo step' m (relocate texts.move value) other).2 := by
  -- Where no token is left and nothing is to be used up, neither loop does anything.
  have idle (value : α) (cursor : Cursor) (reaches : before.Reaches cursor)
      (tame : texts.Tame cursor) (rest_eq : cursor.rest = []) (extra_eq : extra value = 0) :
      step value cursor = (none, cursor) := by
    have onward := (agree value cursor reaches tame).1
    refine Prod.ext ?_ (onward.eq_of_nil rest_eq)
    cases read : (step value cursor).1 with
    | none => rfl
    | some result =>
        have less := reads value cursor result reaches tame.order read
        simp [rest_eq, extra_eq] at less
  have idle_other (value : α) (cursor other : Cursor) (reaches : before.Reaches cursor)
      (tame : texts.Tame cursor) (mirrors : texts.Mirrors cursor other)
      (rest_eq : cursor.rest = []) (extra_eq : extra value = 0) :
      step' (relocate texts.move value) other = (none, other) := by
    have idle := idle value cursor reaches tame rest_eq extra_eq
    have same := (agree value cursor reaches tame).2 other mirrors (.inr (idle ▸ mirrors.inside))
    rw [idle] at same
    exact Prod.ext same.1 (mirrors.unique same.2)
  induction n generalizing m value cursor with
  | zero =>
      have rest_eq : cursor.rest = [] := List.length_eq_zero_iff.mp (by omega)
      have extra_eq : extra value = 0 := by omega
      refine ⟨.refl, fun other mirrors _ _ => ?_⟩
      rw [Parser.iterateUpTo_of_idle
        (idle_other value cursor other reaches tame mirrors rest_eq extra_eq)]
      exact ⟨rfl, mirrors⟩
  | succ n induction =>
      obtain ⟨onward, same⟩ := agree value cursor reaches tame
      cases read : (step value cursor).1 with
      | none =>
          rw [Parser.iterateUpTo_of_none read]
          refine ⟨onward, fun other mirrors enough' within => ?_⟩
          cases m with
          | zero =>
              have rest_eq := mirrors.rest_nil (List.length_eq_zero_iff.mp (by omega))
              rw [idle value cursor reaches tame rest_eq (by omega)]
              exact ⟨rfl, mirrors⟩
          | succ m =>
              obtain ⟨result_eq, mirrors⟩ := same other mirrors within
              rw [read] at result_eq
              rw [Parser.iterateUpTo_of_none result_eq]
              exact ⟨rfl, mirrors⟩
      | some result =>
          have less := reads value cursor result reaches tame.order read
          rw [Parser.iterateUpTo_of_some read]
          have enough' : (step value cursor).2.rest.length + extra result ≤ n := by omega
          obtain ⟨onward', same'⟩ :=
            induction (m := m - 1) (reaches.trans onward) (tame.reaches onward) enough'
          refine ⟨onward.trans onward', fun other mirrors enough' within => ?_⟩
          have length_eq := mirrors.length_eq
          obtain ⟨result_eq, mirrors'⟩ :=
            same other mirrors (within.imp_right (·.of_reaches onward'))
          have length_eq' := mirrors'.length_eq
          obtain ⟨k, rfl⟩ : ∃ k, m = k + 1 := ⟨m - 1, by omega⟩
          rw [read] at result_eq
          rw [Parser.iterateUpTo_of_some result_eq]
          exact same' _ mirrors' (by omega) within

theorem Agree.iterate (extra : α → Nat) {value : α} (light : extra value ≤ 1)
    (agree : ∀ value after, cursor.Reaches after →
      texts.Agree stays (step value) (step' (relocate texts.move value)) after)
    (reads : ∀ value (before : Cursor), cursor.Reaches before → before.IsOrdered →
      ⦃before.place⦄ step value ⦃⇓ result after => ⌜∀ next, result = some next →
        after.rest.length + extra next < before.rest.length + extra value⌝⦄) :
    texts.Agree stays (Parser.iterate step value)
      (Parser.iterate step' (relocate texts.move value)) cursor := by
  have reads (value : α) (before : Cursor) (result : α) (reaches : cursor.Reaches before)
      (order : before.IsOrdered) (read : (step value before).1 = some result) :=
    Parser.triple_iff.mp (reads value before reaches order) before rfl result read
  intro tame
  refine ⟨(iterateUpTo (m := 0) extra agree reads .refl tame (by omega)).1,
    fun other mirrors within => ?_⟩
  exact (iterateUpTo extra agree reads .refl tame (by omega)).2 other mirrors (by omega) within

/-- A loop whose every repetition reads a token. -/
theorem Agree.loop {value : α}
    (agree : ∀ value after, cursor.Reaches after →
      texts.Agree stays (step value) (step' (relocate texts.move value)) after)
    (reads : ∀ value (before : Cursor), cursor.Reaches before → before.IsOrdered →
      ⦃before.place⦄ step value ⦃⇓ result after => ⌜result.isSome → before.ReachesOn after⌝⦄) :
    texts.Agree stays (Parser.iterate step value)
      (Parser.iterate step' (relocate texts.move value)) cursor := by
  refine .iterate (fun _ => 0) (Nat.zero_le _) agree fun value before reaches order => ?_
  refine Parser.triple_iff.mpr ?_
  rintro cursor rfl result read
  have reachesOn := Parser.triple_iff.mp (reads value cursor reaches order) cursor rfl
  exact (reachesOn (Option.isSome_iff_exists.mpr ⟨result, read⟩)).length_lt

end Iterate

theorem Agree.many {step step' : Parser (Option α)}
    (agree : ∀ after, cursor.Reaches after → texts.Agree stays step step' after)
    (reads : ∀ before : Cursor, cursor.Reaches before → before.IsOrdered →
      ⦃before.place⦄ step ⦃⇓ result after => ⌜result.isSome → before.ReachesOn after⌝⦄) :
    texts.Agree stays (Parser.many step) (Parser.many step') cursor := by
  rw [Parser.many_eq_iterate, Parser.many_eq_iterate]
  refine .loop (fun values after reaches => ?_) fun values before reaches order => ?_
  · refine (agree after reaches).map fun result => ?_
    cases result with
    | none => rfl
    | some value =>
        have append_eq : relocate texts.move (values ++ [value]) =
            relocate texts.move values ++ [relocate texts.move value] := List.map_append
        exact congrArg some append_eq.symm
  · refine Parser.triple_iff.mpr ?_
    rintro cursor rfl found
    exact Parser.triple_iff.mp (reads cursor reaches order) cursor rfl
      (Option.isSome_map.symm.trans found)

theorem Agree.repeatWhile {step step' : Parser Bool}
    (agree : ∀ after, cursor.Reaches after → texts.Agree stays step step' after)
    (reads : ∀ before : Cursor, cursor.Reaches before → before.IsOrdered →
      ⦃before.place⦄ step ⦃⇓ goes_on after => ⌜goes_on = true → before.ReachesOn after⌝⦄) :
    texts.Agree stays (Parser.repeatWhile step) (Parser.repeatWhile step') cursor := by
  refine .discard (.many (fun after reaches => ?_) fun before reaches order => ?_)
  · exact .bind_bool (agree after reaches) (fun _ _ _ => .pure rfl) fun _ _ _ => .pure rfl
  · mvcgen [reads] <;> grind

end Parallel

end JavaOutline
