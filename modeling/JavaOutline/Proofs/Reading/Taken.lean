import Mathlib
import JavaOutline.Proofs.Java.Fates
import JavaOutline.Proofs.Reading.Onward

/-!
# The fates of tokens between two places

The tokens from one place to another may have the fates of a language. The languages follow the
reading: what is read after something else goes behind it, and what is read again and again is a
star. Skipping passes over its tokens or loses them: a parenthesis with all that is in it, bracket
pairs, dotted words, type arguments, annotations, and what belongs to no argument.
-/

set_option mvcgen.warning false

open Std.Do
open scoped Computability

namespace JavaOutline

open Fate (shows showsKinds passes upTo lacks loses ofKinds ofWord group IsGroup
  typeArguments annotation passedGroup loosePairs)

namespace Cursor

/-- Whether the tokens between two places may have fates of some kind. -/
def Takes (before : Cursor) (language : Language Fate) (after : Cursor) : Prop :=
  before.Reaches after ∧ ∃ fates ∈ language, before.rest = Fate.tokens fates ++ after.rest ∧
    Fate.Before fates after.rest

/-- The tokens between two places. -/
theorem Reaches.exists_append {before after : Cursor} (reaches : before.Reaches after) :
    ∃ tokens, before.rest = tokens ++ after.rest ∧ (tokens = [] → after = before) ∧
      ∀ last, tokens.getLast? = some last → after.behind = last.span.stop := by
  induction reaches with
  | refl => exact ⟨[], rfl, fun _ => rfl, nofun⟩
  | @tail cursor reaches induction =>
      obtain ⟨tokens, rest_eq, empty, last_eq⟩ := induction
      obtain ⟨rest, behind⟩ := cursor
      cases rest with
      | nil => exact ⟨tokens, rest_eq, empty, last_eq⟩
      | cons token rest =>
          refine ⟨tokens ++ [token], ?_, by simp, fun last found => ?_⟩
          · rw [rest_eq, List.append_assoc]
            rfl
          rw [List.getLast?_append_of_ne_nil _ (List.cons_ne_nil token [])] at found
          obtain rfl : token = last := Option.some.inj found
          rfl

namespace Takes

variable {before middle after : Cursor} {left right : Language Fate}

theorem refl (nil : [] ∈ left) : before.Takes left before :=
  ⟨.refl, [], nil, rfl, trivial⟩

theorem reaches (takes : before.Takes left after) : before.Reaches after :=
  takes.1

theorem mul (first : before.Takes left middle) (second : middle.Takes right after) :
    before.Takes (left * right) after := by
  obtain ⟨reaches, fates, fates_mem, rest_eq, before_rest⟩ := first
  obtain ⟨reaches', fates', fates_mem', rest_eq', before_rest'⟩ := second
  refine ⟨reaches.trans reaches', fates ++ fates', Language.append_mem_mul fates_mem fates_mem', ?_,
    Fate.before_append.mpr ⟨rest_eq' ▸ before_rest, before_rest'⟩⟩
  rw [rest_eq, rest_eq', Fate.tokens_append, List.append_assoc]

theorem mono (takes : before.Takes left after) (le : left ≤ right) : before.Takes right after := by
  obtain ⟨reaches, fates, fates_mem, taken⟩ := takes
  exact ⟨reaches, fates, le fates_mem, taken⟩

theorem inl (takes : before.Takes left after) : before.Takes (left + right) after :=
  takes.mono fun _ => .inl

theorem inr (takes : before.Takes right after) : before.Takes (left + right) after :=
  takes.mono fun _ => .inr

@[grind .]
theorem one : before.Takes 1 before :=
  .refl Language.nil_mem_one

theorem nothing : before.Takes (1 + left) before :=
  .inl .one

theorem mul_kstar (first : before.Takes left middle) (second : middle.Takes left∗ after) :
    before.Takes left∗ after := by
  refine (first.mul second).mono ?_
  nth_rewrite 2 [← Language.one_add_self_mul_kstar_eq_kstar]
  exact fun _ => .inr

theorem passed {tokens : List Token} {language : Language Token} (reaches : before.Reaches after)
    (member : tokens ∈ language) (rest_eq : before.rest = tokens ++ after.rest) :
    before.Takes (passes language) after :=
  ⟨reaches, tokens.map .passed, ⟨tokens, member, rfl⟩, by rw [Fate.tokens_map_passed, rest_eq],
    Fate.before_map_passed _ _⟩

theorem shown {tokens : List Token} {kinds : List TokenKind} (reaches : before.Reaches after)
    (kinds_eq : tokens.map (·.kind) = kinds) (rest_eq : before.rest = tokens ++ after.rest) :
    before.Takes (showsKinds kinds) after :=
  ⟨reaches, tokens.map .shown, ⟨tokens, kinds_eq, rfl⟩, by rw [Fate.tokens_map_shown, rest_eq],
    Fate.before_map_shown _ _⟩

theorem lost {run : List Token} {language : Language Token}
    {allowed : List Token → List Token → Prop} (reaches : before.Reaches after)
    (member : run ∈ language) (rest_eq : before.rest = run ++ after.rest)
    (allows : allowed run after.rest) : before.Takes (loses language allowed) after :=
  ⟨reaches, _, ⟨run, member, after.rest, allows, rfl⟩, by rw [Fate.tokens_lostBefore, rest_eq],
    Fate.before_lostBefore _ _⟩

/-- Tokens are taken up to others that allow them to end there. -/
theorem upTo (takes : before.Takes left after) {P : List Token → List Token → Prop}
    (ends : ∀ read, before.rest = read ++ after.rest → P read after.rest) :
    before.Takes (upTo left P) after := by
  obtain ⟨reaches, fates, member, rest_eq, before_rest⟩ := takes
  refine ⟨reaches, _, ⟨fates, member, after.rest, ends _ rest_eq, rfl⟩, ?_,
    Fate.before_append.mpr ⟨before_rest, rfl, trivial⟩⟩
  rw [rest_eq, Fate.tokens_append]
  simp [Fate.tokens, Fate.token?]

/-- What is taken is taken whatever follows. -/
theorem of_upTo {P : List Token → List Token → Prop}
    (takes : before.Takes (Fate.upTo left P) after) : before.Takes left after := by
  obtain ⟨reaches, _, ⟨fates, member, behind, -, rfl⟩, rest_eq, before_rest⟩ := takes
  refine ⟨reaches, fates, member, ?_, (Fate.before_append.mp before_rest).1⟩
  rw [rest_eq, Fate.tokens_append]
  simp [Fate.tokens, Fate.token?]

theorem lacks {sort : Token → Prop} (ends : ∀ next ∈ before.rest.head?, ¬sort next) :
    before.Takes (lacks sort) before :=
  upTo one fun _ _ => ends

end Takes

/-- Whether the tokens between two places and those behind them meet a condition. -/
def Crosses (P : List Token → List Token → Prop) (before after : Cursor) : Prop :=
  before.Reaches after ∧ ∃ read, before.rest = read ++ after.rest ∧ P read after.rest

namespace Crosses

variable {P Q : List Token → List Token → Prop} {before middle after : Cursor}

theorem reaches (crosses : before.Crosses P after) : before.Reaches after :=
  crosses.1

theorem holds (crosses : before.Crosses P after) {read : List Token}
    (rest_eq : before.rest = read ++ after.rest) : P read after.rest := by
  obtain ⟨-, others, rest_eq', holds⟩ := crosses
  exact List.append_cancel_right (rest_eq'.symm.trans rest_eq) ▸ holds

/-- What was read before comes in front. -/
theorem behind (reaches : before.Reaches middle) (crosses : middle.Crosses P after)
    (append : ∀ front read, P read after.rest → Q (front ++ read) after.rest) :
    before.Crosses Q after := by
  obtain ⟨front, rest_eq, -⟩ := reaches.exists_append
  obtain ⟨reaches', read, rest_eq', holds⟩ := crosses
  exact ⟨reaches.trans reaches', front ++ read, by rw [rest_eq, rest_eq', List.append_assoc],
    append front read holds⟩

end Crosses

theorem Takes.crosses {language : Language Fate} {P : List Token → List Token → Prop}
    {before after : Cursor} (takes : before.Takes language after)
    (crosses : before.Crosses P after) : before.Takes (Fate.upTo language P) after :=
  takes.upTo fun _ => crosses.holds

section Tail

variable {cursor : Cursor} {token : Token} {rest : List Token}

theorem rest_tail (head : cursor.rest = token :: rest) : cursor.tail.rest = rest := by
  rw [tail, head]

theorem rest_eq_append_tail (head : cursor.rest = token :: rest) :
    cursor.rest = [token] ++ cursor.tail.rest := by
  rw [rest_tail head, head, List.singleton_append]

theorem takes_shows (head : cursor.rest = token :: rest) :
    cursor.Takes (shows token.kind token.text) cursor.tail :=
  ⟨.tail .refl, [.shown token], ⟨token.span, rfl⟩, rest_eq_append_tail head, trivial⟩

theorem takes_showsKinds {kind : TokenKind} (found : cursor.isAt kind) :
    cursor.Takes (showsKinds [kind]) cursor.tail := by
  obtain ⟨rest, behind⟩ := cursor
  cases rest with
  | nil => cases found
  | cons token rest =>
      have kind_eq : token.kind = kind := by simpa [isAt] using found
      have kinds_eq : [token].map (·.kind) = [kind] := by simp [kind_eq]
      exact .shown (.tail .refl) kinds_eq rfl

theorem takes_passes {kind : TokenKind} (found : cursor.isAt kind) :
    cursor.Takes (passes (ofKinds [kind])) cursor.tail := by
  obtain ⟨rest, behind⟩ := cursor
  cases rest with
  | nil => cases found
  | cons token rest =>
      have kind_eq : token.kind = kind := by simpa [isAt] using found
      have member : [token] ∈ ofKinds [kind] := congrArg (fun kind => [kind]) kind_eq
      exact .passed (.tail .refl) member rfl

theorem takes_word {word : String} (found : cursor.isAtWord word) :
    cursor.Takes (shows .word word) cursor.tail := by
  obtain ⟨rest, behind⟩ := cursor
  cases rest with
  | nil => cases found
  | cons token rest =>
      obtain ⟨kind_eq, rfl⟩ : token.kind = .word ∧ token.text = word := by
        simpa [isAtWord, Token.isWord] using found
      rw [← kind_eq]
      exact takes_shows rfl

end Tail

/-- Whether passing over type arguments, if there are any, leads from one place to another. If no
word is read next, none follows the type arguments at the first place. -/
def PassesTypeArguments (before after : Cursor) : Prop :=
  before.Reaches after ∧ ∃ arguments ∈ 1 + typeArguments, before.rest = arguments ++ after.rest ∧
    (after.isAt .word = false → ¬Fate.Names before.rest)

/-- Whether skipping all bracket pairs leads from one place to another. -/
def PassesPairs (before after : Cursor) : Prop :=
  before.Reaches after ∧ ∃ run ∈ (ofKinds [.openBracket, .closeBracket])∗,
    before.rest = run ++ after.rest ∧ after.isAtBrackets = false

section Passes

variable {before middle after : Cursor}

@[grind →]
theorem PassesTypeArguments.takes (passes : before.PassesTypeArguments after) :
    before.Takes (1 + Fate.passes typeArguments) after := by
  obtain ⟨reaches, arguments, rfl | member, rest_eq, -⟩ := passes
  · exact .inl ⟨reaches, [], rfl, rest_eq, trivial⟩
  · exact .inr (.passed reaches member rest_eq)

@[grind →]
theorem PassesPairs.reaches (passes : before.PassesPairs after) : before.Reaches after :=
  passes.1

/-- A dot that no word follows is lost. -/
theorem PassesTypeArguments.takes_looseDot (found : before.isAt .dot)
    (passes : before.tail.PassesTypeArguments after) (no_word : after.isAt .word = false) :
    before.Takes Fate.looseDot after := by
  obtain ⟨_ | ⟨dot, rest⟩, behind⟩ := before
  · cases found
  obtain ⟨reaches, arguments, member, rest_eq, unnamed⟩ := passes
  have kind_eq : dot.kind = .dot := by simpa [isAt] using found
  have rest_eq : rest = arguments ++ after.rest := rest_eq
  have run_mem : [dot] ++ arguments ∈ ofKinds [.dot] * (1 + typeArguments) :=
    Language.append_mem_mul (congrArg (fun kind => [kind]) kind_eq) member
  refine .lost (reaches_cons reaches) run_mem (congrArg (dot :: ·) rest_eq) ?_
  change ¬Fate.Names (arguments ++ after.rest)
  rw [← rest_eq]
  exact unnamed no_word

theorem goOnWithType_rest (cursor : Cursor) : Fate.GoOnWithType cursor.rest =
    (cursor.isAt .doubleColon || cursor.isAt .dot && cursor.isWordAhead 1 "class" ||
      cursor.isAtBrackets) := by
  obtain ⟨_ | ⟨first, _ | ⟨second, rest⟩⟩, behind⟩ := cursor
  · rfl
  · simp [Fate.GoOnWithType, isAt, isWordAhead, ahead?, isAtBrackets, isAhead, kindAhead?]
  · simp [Fate.GoOnWithType, isAt, isWordAhead, ahead?, isAtBrackets, isAhead, kindAhead?,
      Bool.or_assoc]

/-- Bracket pairs that belong to no class literal and no method reference are lost. -/
theorem PassesPairs.takes_loosePairs (passes : before.PassesPairs after)
    (no_literal : ¬(after.isAt .dot && after.isWordAhead 1 "class") = true)
    (no_reference : after.isAt .doubleColon = false) : before.Takes loosePairs after := by
  obtain ⟨reaches, run, member, rest_eq, no_pair⟩ := passes
  refine .lost reaches member rest_eq (.inr ?_)
  rw [goOnWithType_rest, no_reference, no_pair, Bool.eq_false_iff.mpr no_literal]
  exact Bool.false_ne_true

end Passes

section Skipped

/-- Whether some tokens lead out of type arguments that are some brackets deep. -/
structure ClosesTypes (depth : Nat) (tokens : List Token) : Prop where
  parts : ∀ token ∈ tokens, token.isTypePart
  closed : Fate.count [.greater] tokens = depth + Fate.count [.less] tokens
  inside : ∀ front back, tokens = front ++ back → back ≠ [] →
    Fate.count [.greater] front < depth + Fate.count [.less] front

theorem closesTypes_zero {tokens : List Token} : ClosesTypes 0 tokens ↔ tokens = [] := by
  constructor
  · intro closes
    by_contra some_tokens
    exact absurd (closes.inside [] tokens rfl some_tokens) (Nat.lt_irrefl _)
  · rintro rfl
    exact ⟨nofun, rfl, fun front back append_eq more =>
      absurd (List.append_eq_nil_iff.mp append_eq.symm).2 more⟩

theorem closesTypes_cons {depth depth' : Nat} {token : Token} {tokens : List Token}
    (part : token.isTypePart)
    (depth_eq : depth' + Fate.count [.greater] [token] = depth + 1 + Fate.count [.less] [token]) :
    ClosesTypes (depth + 1) (token :: tokens) ↔ ClosesTypes depth' tokens := by
  have greater := Fate.count_cons [.greater] token
  have less := Fate.count_cons [.less] token
  constructor
  · rintro ⟨parts, closed, inside⟩
    rw [greater tokens, less tokens] at closed
    refine ⟨(List.forall_mem_cons.mp parts).2, by omega, fun front back append_eq more => ?_⟩
    have within := inside (token :: front) back (congrArg (token :: ·) append_eq) more
    rw [greater front, less front] at within
    omega
  · rintro ⟨parts, closed, inside⟩
    refine ⟨List.forall_mem_cons.mpr ⟨part, parts⟩, ?_, fun front back append_eq more => ?_⟩
    · rw [greater tokens, less tokens]
      omega
    · cases front with
      | nil => exact Nat.succ_pos _
      | cons first front =>
          obtain ⟨rfl, rfl⟩ := List.cons.inj append_eq
          have within := inside front back rfl more
          rw [greater front, less front]
          omega

/-- Type arguments are skipped exactly to where they are closed. -/
theorem afterTypeArguments?_rest_eq {depth behind : Nat} {rest more : List Token} :
    (afterTypeArguments? depth behind rest).map (·.rest) = some more ↔
      ∃ tokens, rest = tokens ++ more ∧ ClosesTypes depth tokens := by
  induction rest generalizing depth behind with
  | nil =>
      cases depth with
      | zero => simp [afterTypeArguments?, closesTypes_zero, eq_comm]
      | succ depth =>
          constructor
          · intro found
            cases found
          · rintro ⟨tokens, nil_eq, closes⟩
            obtain ⟨rfl, -⟩ := List.append_eq_nil_iff.mp nil_eq.symm
            exact absurd closes.closed (Nat.succ_ne_zero _).symm
  | cons token rest induction =>
      cases depth with
      | zero => simp [afterTypeArguments?, closesTypes_zero, eq_comm]
      | succ depth =>
          have cons_iff {depth' behind : Nat} (part : token.isTypePart)
              (depth_eq : depth' + Fate.count [.greater] [token] =
                depth + 1 + Fate.count [.less] [token]) :
              (afterTypeArguments? depth' behind rest).map (·.rest) = some more ↔
                ∃ tokens, token :: rest = tokens ++ more ∧ ClosesTypes (depth + 1) tokens := by
            rw [induction]
            constructor
            · rintro ⟨tokens, rfl, closes⟩
              exact ⟨token :: tokens, rfl, (closesTypes_cons part depth_eq).mpr closes⟩
            · rintro ⟨_ | ⟨first, tokens⟩, append_eq, closes⟩
              · exact absurd closes.closed (Nat.succ_ne_zero _).symm
              · obtain ⟨rfl, rfl⟩ := List.cons.inj append_eq
                exact ⟨tokens, rfl, (closesTypes_cons part depth_eq).mp closes⟩
          rw [afterTypeArguments?]
          split
          · next less =>
              exact cons_iff (by simp [Token.isTypePart, less]) (by simp [Fate.count, less])
          · next greater =>
              exact cons_iff (by simp [Token.isTypePart, greater]) (by simp [Fate.count, greater])
          · next not_less not_greater =>
            have other : token.kind ≠ .less ∧ token.kind ≠ .greater := ⟨not_less, not_greater⟩
            split
            · next allowed =>
                refine cons_iff (by simp [Token.isTypePart, allowed]) ?_
                simp [Fate.count, other]
            · next refused =>
                constructor
                · intro found
                  cases found
                · rintro ⟨_ | ⟨first, tokens⟩, append_eq, closes⟩
                  · exact absurd closes.closed (Nat.succ_ne_zero _).symm
                  · obtain ⟨rfl, rfl⟩ := List.cons.inj append_eq
                    have part := closes.parts _ List.mem_cons_self
                    simp [Token.isTypePart, refused, other] at part

theorem ClosesTypes.skipped {depth : Nat} {tokens : List Token} (closes : ClosesTypes depth tokens)
    (behind : Nat) (more : List Token) :
    (afterTypeArguments? depth behind (tokens ++ more)).map (·.rest) = some more :=
  afterTypeArguments?_rest_eq.mpr ⟨tokens, rfl, closes⟩

theorem mem_typeArguments {tokens : List Token} : tokens ∈ typeArguments ↔
    ∃ opening inner, tokens = opening :: inner ∧ opening.kind = .less ∧ ClosesTypes 1 inner := by
  constructor
  · rintro ⟨opens, parts, closed, inside⟩
    obtain _ | ⟨opening, inner⟩ := tokens
    · cases opens
    have less : opening.kind = .less := by simpa using opens
    refine ⟨opening, inner, rfl, less, (List.forall_mem_cons.mp parts).2, ?_, ?_⟩
    · simp only [Fate.count, List.countP_cons, less] at closed ⊢
      grind -ring -linarith
    · intro front back append_eq more
      have within := inside (opening :: front) back (congrArg (opening :: ·) append_eq)
        (List.cons_ne_nil _ _) more
      simp only [Fate.count, List.countP_cons, less] at within ⊢
      grind -ring -linarith
  · rintro ⟨opening, inner, rfl, less, parts, closed, inside⟩
    refine ⟨by simp [less], List.forall_mem_cons.mpr ⟨by simp [Token.isTypePart, less], parts⟩, ?_,
      fun front back append_eq some_front more => ?_⟩
    · simp only [Fate.count, List.countP_cons, less] at closed ⊢
      grind -ring -linarith
    · obtain ⟨first, front, rfl⟩ := List.exists_cons_of_ne_nil some_front
      obtain ⟨rfl, rfl⟩ := List.cons.inj append_eq
      have within := inside front back rfl more
      simp only [Fate.count, List.countP_cons, less] at within ⊢
      grind -ring -linarith

/-- Type arguments end where they are closed for the first time. -/
theorem typeArguments_unique {arguments arguments' more more' : List Token}
    (member : arguments ∈ typeArguments) (member' : arguments' ∈ typeArguments)
    (same : arguments ++ more = arguments' ++ more') : more = more' := by
  obtain ⟨opening, inner, rfl, -, closes⟩ := mem_typeArguments.mp member
  obtain ⟨opening', inner', rfl, -, closes'⟩ := mem_typeArguments.mp member'
  obtain ⟨-, inner_eq⟩ := List.cons.inj same
  have inner_eq : inner ++ more = inner' ++ more' := inner_eq
  have skipped := closes.skipped 0 more
  rw [inner_eq, closes'.skipped 0 more'] at skipped
  exact (Option.some.inj skipped).symm

theorem exists_of_afterBalanced {opening closing : TokenKind} (other : closing ≠ opening)
    (depth behind : Nat) (rest : List Token) :
    ∃ tokens, rest = tokens ++ (afterBalanced opening closing depth behind rest).rest ∧
      (∀ front back, tokens = front ++ back → back ≠ [] →
        Fate.count [closing] front < depth + Fate.count [opening] front) ∧
      ((afterBalanced opening closing depth behind rest).rest ≠ [] →
        Fate.count [closing] tokens = depth + Fate.count [opening] tokens) := by
  fun_induction afterBalanced opening closing depth behind rest with
  | case1 | case2 =>
      refine ⟨[], rfl, fun front back append_eq more => ?_, fun more => ?_⟩
      · exact absurd (List.append_eq_nil_iff.mp append_eq.symm).2 more
      · first
        | rfl
        | exact absurd rfl more
  | case3 behind depth token rest next induction =>
      obtain ⟨tokens, rest_eq, inside, closes⟩ := induction
      refine ⟨token :: tokens, congrArg (token :: ·) rest_eq, fun front back append_eq more => ?_,
        fun more => ?_⟩
      · cases front with
        | nil => simp [Fate.count]
        | cons first front =>
            obtain ⟨rfl, rfl⟩ := List.cons.inj append_eq
            have inside := inside front back rfl more
            simp only [Fate.count, List.countP_cons, next] at inside ⊢
            grind -ring -linarith
      · have closes := closes more
        simp only [Fate.count, List.countP_cons, next] at closes ⊢
        grind -ring -linarith

theorem passesPairs_afterBrackets (behind : Nat) (rest : List Token) :
    PassesPairs ⟨rest, behind⟩ (afterBrackets behind rest).2 := by
  fun_induction afterBrackets behind rest with
  | case1 behind token closing rest found pairs cursor after_eq induction =>
      have pair : [token, closing] ∈ ofKinds [.openBracket, .closeBracket] := by
        simpa [Fate.mem_ofKinds] using found
      rw [after_eq] at induction
      obtain ⟨reaches, run, member, rest_eq, ends⟩ := induction
      refine ⟨.trans (.tail (.tail .refl)) reaches, [token, closing] ++ run, ?_, ?_, ends⟩
      · rw [← Language.one_add_self_mul_kstar_eq_kstar]
        exact .inr (Language.append_mem_mul pair member)
      · rw [List.append_assoc, ← rest_eq]
        rfl
  | case2 behind token closing rest other =>
      refine ⟨.refl, [], Language.nil_mem_kstar _, rfl, ?_⟩
      simpa [isAtBrackets, isAt, isAhead, kindAhead?, ahead?] using other
  | case3 behind rest short =>
      refine ⟨.refl, [], Language.nil_mem_kstar _, rfl, ?_⟩
      obtain _ | ⟨token, _ | ⟨closing, rest⟩⟩ := rest
      · rfl
      · simp [isAtBrackets, isAhead, kindAhead?, ahead?]
      · exact absurd rfl (short token closing rest)

theorem takes_afterDotted (behind : Nat) (rest : List Token) :
    Takes ⟨rest, behind⟩ (passes (ofKinds [.dot, .word]))∗ (afterDotted behind rest).2 := by
  fun_induction afterDotted behind rest with
  | case1 behind dot word rest found words cursor after_eq induction =>
      have pair : [dot, word] ∈ ofKinds [.dot, .word] := by
        simpa [Fate.mem_ofKinds] using found
      have taken : Takes ⟨dot :: word :: rest, behind⟩ _ ⟨rest, word.span.stop⟩ :=
        .passed (.tail (.tail .refl)) pair rfl
      rw [after_eq] at induction
      exact taken.mul_kstar induction
  | case2 | case3 => exact .refl (Language.nil_mem_kstar _)

/-- One step of skipping to the end of an argument. -/
theorem beforeStop_cons_cases (depth behind : Nat) (token : Token) (rest : List Token) :
    beforeStop [.comma, .closeParen] depth behind (token :: rest) = ⟨token :: rest, behind⟩ ∧
        token.kind ∈ [.comma, .closeParen, .closeBrace, .closeBracket] ∨
      (depth = 0 → token.kind ≠ .comma ∧ token.kind ≠ .closeParen) ∧
        ∃ depth', beforeStop [.comma, .closeParen] depth behind (token :: rest) =
          beforeStop [.comma, .closeParen] depth' token.span.stop rest ∧
            depth' + Fate.count [.closeParen, .closeBrace, .closeBracket] [token] =
              depth + Fate.count [.openParen, .openBrace, .openBracket] [token] := by
  rw [beforeStop]
  by_cases stops : (depth = 0 && [TokenKind.comma, .closeParen].contains token.kind) = true
  · rw [if_pos stops]
    exact .inl ⟨rfl, by grind -ring -linarith⟩
  rw [if_neg stops]
  have outside : depth = 0 → token.kind ≠ .comma ∧ token.kind ≠ .closeParen := by
    grind -ring -linarith
  split
  case h_1 kind_eq | h_2 kind_eq | h_3 kind_eq =>
    exact .inr ⟨outside, _, rfl, by simp [Fate.count, kind_eq]⟩
  case h_4 kind_eq | h_5 kind_eq | h_6 kind_eq =>
    split_ifs with zero
    · exact .inl ⟨rfl, by simp [kind_eq]⟩
    · exact .inr ⟨outside, _, rfl, by simp [Fate.count, kind_eq]; omega⟩
  case h_7 =>
    refine .inr ⟨outside, _, rfl, ?_⟩
    simp only [Fate.count, List.countP_singleton]
    grind -ring -linarith

theorem exists_of_beforeStop (depth behind : Nat) (rest : List Token) :
    ∃ tokens, rest = tokens ++ (beforeStop [.comma, .closeParen] depth behind rest).rest ∧
      (∀ token ∈ (beforeStop [.comma, .closeParen] depth behind rest).rest.head?,
        token.kind ∈ [.comma, .closeParen, .closeBrace, .closeBracket]) ∧
      ∀ front token back, tokens = front ++ token :: back →
        depth + Fate.count [.openParen, .openBrace, .openBracket] front =
          Fate.count [.closeParen, .closeBrace, .closeBracket] front →
        token.kind ≠ .comma ∧ token.kind ≠ .closeParen := by
  induction rest generalizing depth behind with
  | nil => exact ⟨[], rfl, nofun, by simp⟩
  | cons token rest induction =>
      obtain ⟨stays, ends⟩ | ⟨outside, depth', goes_on, depth_eq⟩ :=
        beforeStop_cons_cases depth behind token rest
      · rw [stays]
        refine ⟨[], rfl, fun other found => ?_, by simp⟩
        obtain rfl : token = other := Option.some.inj found
        exact ends
      · rw [goes_on]
        obtain ⟨tokens, rest_eq, ends, inside⟩ := induction depth' token.span.stop
        refine ⟨token :: tokens, congrArg (token :: ·) rest_eq, ends, ?_⟩
        rintro (_ | ⟨first, front⟩) other back append_eq balanced
        · obtain ⟨rfl, -⟩ := List.cons.inj append_eq
          exact outside (by simpa [Fate.count] using balanced)
        · obtain ⟨rfl, rfl⟩ := List.cons.inj append_eq
          refine inside front other back rfl ?_
          simp only [Fate.count, List.countP_cons, List.countP_nil] at balanced depth_eq ⊢
          omega

end Skipped

section Passes

variable {before after : Cursor} {kind : TokenKind}

theorem Passes.takes_passes (passed : before.Passes kind after) :
    before.Takes (1 + passes (ofKinds [kind])) after := by
  rcases passed with rfl | ⟨found, rfl⟩
  · exact .nothing
  · exact .inr (Cursor.takes_passes found)

theorem Passes.takes_showsKinds (passed : before.Passes kind after) :
    before.Takes (1 + showsKinds [kind]) after := by
  rcases passed with rfl | ⟨found, rfl⟩
  · exact .nothing
  · exact .inr (Cursor.takes_showsKinds found)

end Passes

end Cursor

namespace Parser

variable {language : Language Fate}

/-- What is repeated takes tokens again and again, if each time it takes some or stays in place. -/
theorem takes_repeatWhile {step : Parser Bool}
    (takes : ∀ before : Cursor, ⦃before.place⦄ step
      ⦃⇓ more after => ⌜if more then before.Takes language after else after = before⌝⦄)
    (before : Cursor) :
    ⦃before.place⦄ repeatWhile step ⦃⇓ _ after => ⌜before.Takes language∗ after⌝⦄ := by
  have loop (next : Parser (Option Unit)) (each : ∀ before : Cursor, ⦃before.place⦄ next
      ⦃⇓ more after => ⌜if more.isSome then before.Takes language after else after = before⌝⦄)
      (n : Nat) (before : Cursor) :
      ⦃before.place⦄ manyUpTo next n ⦃⇓ _ after => ⌜before.Takes language∗ after⌝⦄ := by
    induction n generalizing before with
    | zero => exact triple_iff.mpr fun cursor here => here ▸ .refl (Language.nil_mem_kstar _)
    | succ n induction =>
        mvcgen [manyUpTo, each, induction]
        case vc1 here _ _ _ stays =>
          subst here
          obtain rfl : _ = _ := by simpa using stays
          exact .refl (Language.nil_mem_kstar _)
        case vc2 here _ _ _ _ took _ _ later =>
          subst here
          exact Cursor.Takes.mul_kstar took later
  refine triple_iff.mpr ?_
  rintro cursor rfl
  refine triple_iff.mp (loop (do return if ← step then some () else none) ?_
    (cursor.rest.length + 1) cursor) cursor rfl
  intro before
  mvcgen [takes]
  case vc1 here more _ took =>
    subst here
    cases more <;> simpa using took

/-- A group in brackets is skipped, if one begins. -/
theorem crosses_skipBalanced (opening closing : TokenKind) (other : closing ≠ opening)
    (before : Cursor) :
    ⦃before.place⦄ skipBalanced opening closing
      ⦃⇓ _ after => ⌜before.Crosses (IsGroup opening closing) after⌝⦄ := by
  refine triple_iff.mpr ?_
  rintro cursor rfl
  unfold skipBalanced
  split
  · next found =>
    obtain ⟨rest, behind⟩ := cursor
    cases rest with
    | nil => cases found
    | cons token rest =>
        have opens : token.kind = opening := by simpa [Cursor.isAt] using found
        have no_close : token.kind ≠ closing := fun closes => other (closes.symm.trans opens)
        obtain ⟨tokens, rest_eq, inside, closes⟩ :=
          Cursor.exists_of_afterBalanced other 1 token.span.stop rest
        have reaches := Cursor.reaches_afterBalanced opening closing 1 token.span.stop rest
        have member : token :: tokens ∈ group opening closing := by
          refine ⟨by simp [opens], fun front back append_eq some_front some_back => ?_⟩
          obtain ⟨first, front, rfl⟩ := List.exists_cons_of_ne_nil some_front
          obtain ⟨rfl, tokens_eq⟩ := List.cons.inj append_eq
          have inside := inside front back tokens_eq some_back
          simp only [Fate.count, List.countP_cons] at inside ⊢
          grind -ring -linarith
        refine ⟨Cursor.reaches_cons reaches, _, congrArg (token :: ·) rest_eq, .inr ⟨member, ?_⟩⟩
        by_cases ends : (Cursor.afterBalanced opening closing 1 token.span.stop rest).rest = []
        · exact .inl ends
        · have closes := closes ends
          refine .inr ⟨member, ?_⟩
          simp only [Fate.count, List.countP_cons] at closes ⊢
          grind -ring -linarith
  · next missing =>
    refine ⟨.refl, [], rfl, .inl ⟨rfl, fun next found kind_eq => missing ?_⟩⟩
    rw [Cursor.isAt, found]
    exact decide_eq_true kind_eq

theorem crosses_skipBraces (before : Cursor) : ⦃before.place⦄ skipBraces
    ⦃⇓ _ after => ⌜before.Crosses (IsGroup .openBrace .closeBrace) after⌝⦄ :=
  crosses_skipBalanced .openBrace .closeBrace nofun before

theorem crosses_skipParens (before : Cursor) : ⦃before.place⦄ skipParens
    ⦃⇓ _ after => ⌜before.Crosses (IsGroup .openParen .closeParen) after⌝⦄ :=
  crosses_skipBalanced .openParen .closeParen nofun before

theorem takes_skipParens (before : Cursor) :
    ⦃before.place⦄ skipParens ⦃⇓ _ after => ⌜before.Takes passedGroup after⌝⦄ := by
  refine triple_iff.mpr ?_
  rintro cursor rfl
  have crosses := triple_iff.mp (crosses_skipParens cursor) cursor rfl
  have passed : cursor.Takes (passes ⊤) (skipParens cursor).2 := by
    obtain ⟨reaches, read, rest_eq, -⟩ := crosses
    exact .passed reaches (Set.mem_univ _) rest_eq
  exact passed.crosses crosses

/-- The next token is accepted exactly if it is of the kind. -/
theorem place_accept_exact (kind : TokenKind) (before : Cursor) :
    ⦃before.place⦄ accept kind ⦃⇓ accepted after => ⌜accepted = before.isAt kind ∧
      after = if accepted then before.tail else before⌝⦄ := by
  refine triple_iff.mpr ?_
  rintro cursor rfl
  unfold accept
  split
  · next found => exact ⟨found.symm, rfl⟩
  · next missing => exact ⟨(Bool.eq_false_iff.mpr missing).symm, rfl⟩

theorem place_next?_exact (before : Cursor) :
    ⦃before.place⦄ next? ⦃⇓ token after => ⌜token = before.rest.head? ∧ after = before.tail⌝⦄ :=
  triple_iff.mpr fun _ here => here ▸ ⟨rfl, rfl⟩

theorem takes_dottedWords (before : Cursor) :
    ⦃before.place⦄ dottedWords
      ⦃⇓ _ after => ⌜before.Takes (passes (ofKinds [.dot, .word]))∗ after⌝⦄ :=
  triple_iff.mpr fun cursor here => here ▸ Cursor.takes_afterDotted cursor.behind cursor.rest

theorem passesPairs_skipBracketPairs (before : Cursor) :
    ⦃before.place⦄ skipBracketPairs ⦃⇓ _ after => ⌜before.PassesPairs after⌝⦄ :=
  triple_iff.mpr fun cursor here =>
    here ▸ Cursor.passesPairs_afterBrackets cursor.behind cursor.rest

theorem takes_qualifiedName (before : Cursor) (found : before.isAt .word) :
    ⦃before.place⦄ qualifiedName ⦃⇓ _ after =>
      ⌜before.Takes (passes (ofKinds [.word]) * (passes (ofKinds [.dot, .word]))∗) after⌝⦄ := by
  mvcgen [qualifiedName, place_next?_exact, takes_dottedWords, -onward_qualifiedName,
    -onward_dottedWords, -onward_next?, -place_next?]
  case vc1 here _ found _ _ read _ _ later =>
    subst here
    obtain ⟨-, rfl⟩ := read
    exact (Cursor.takes_passes found).mul later
  case vc2 here _ missing _ _ _ =>
    subst here
    exact absurd found missing

theorem takes_skipAnnotation (before : Cursor) (found : before.isAt .atSign) :
    ⦃before.place⦄ skipAnnotation ⦃⇓ _ after => ⌜before.Takes annotation after⌝⦄ := by
  mvcgen [ skipAnnotation, place_accept_exact, takes_qualifiedName, takes_skipParens,
    - onward_skipAnnotation, - place_skipAnnotation, -onward_qualifiedName, -onward_skipParens,
    -place_skipParens, -place_accept, -place_accept_found, -place_accept_eq]
  case vc2 here _ _ sign _ _ _ _ named _ _ =>
    subst here
    obtain ⟨rfl, rfl⟩ := sign
    rw [found, if_pos rfl] at named
    exact fun later => ((Cursor.takes_passes found).mul named.inr).mul later
  case vc3 here _ _ sign _ _ _ _ =>
    subst here
    obtain ⟨rfl, rfl⟩ := sign
    rw [found, if_pos rfl]
    exact fun later => ((Cursor.takes_passes found).mul .nothing).mul later

theorem place_atAnnotation_exact (before : Cursor) :
    ⦃before.place⦄ atAnnotation ⦃⇓ found after =>
      ⌜found = (before.isAt .atSign && !before.isWordAhead 1 "interface") ∧ after = before⌝⦄ :=
  triple_iff.mpr fun _ here => here ▸ ⟨rfl, rfl⟩

/-- Annotations are passed over one by one. -/
theorem takes_skipAnnotations (before : Cursor) :
    ⦃before.place⦄ skipAnnotations ⦃⇓ _ after => ⌜before.Takes annotation∗ after⌝⦄ := by
  refine takes_repeatWhile (fun before => ?_) before
  mvcgen [ takes_skipAnnotation, place_atAnnotation_exact, - onward_atAnnotation,
    - place_atAnnotation, - onward_skipAnnotation, - place_skipAnnotation]
  case vc1 found _ at_sign =>
    obtain ⟨found_eq, rfl⟩ := at_sign
    rw [found, eq_comm, Bool.and_eq_true] at found_eq
    exact found_eq.1
  case vc2 here _ _ _ at_sign _ _ took =>
    subst here
    obtain ⟨-, rfl⟩ := at_sign
    simpa using took
  case vc3 here _ _ _ at_sign =>
    subst here
    simpa using at_sign.2

/-- Type arguments are skipped if there are any. -/
theorem skipTypeArguments_cases (cursor : Cursor) :
    ((skipTypeArguments cursor).1 = true ∧ cursor.Reaches (skipTypeArguments cursor).2 ∧
        ∃ arguments ∈ typeArguments, cursor.rest = arguments ++ (skipTypeArguments cursor).2.rest) ∨
      skipTypeArguments cursor = (false, cursor) ∧
        ∀ arguments ∈ typeArguments, ∀ more, cursor.rest ≠ arguments ++ more := by
  obtain ⟨_ | ⟨token, rest⟩, behind⟩ := cursor
  · refine .inr ⟨rfl, fun arguments member more nil_eq => ?_⟩
    obtain ⟨opening, inner, rfl, -⟩ := Cursor.mem_typeArguments.mp member
    cases nil_eq
  by_cases less : token.kind = .less
  · have opens : Cursor.isAt ⟨token :: rest, behind⟩ .less := by simp [Cursor.isAt, less]
    rw [skipTypeArguments, if_pos opens]
    split
    · next after found =>
      have rest_eq := congrArg (Option.map (·.rest)) found
      obtain ⟨inner, rest_eq, closes⟩ := Cursor.afterTypeArguments?_rest_eq.mp rest_eq
      have reaches := Cursor.reaches_afterTypeArguments? found
      have member := Cursor.mem_typeArguments.mpr ⟨token, inner, rfl, less, closes⟩
      exact .inl ⟨rfl, .trans (.tail .refl) reaches, _, member, congrArg (token :: ·) rest_eq⟩
    · next missing =>
      refine .inr ⟨rfl, fun arguments member more append_eq => ?_⟩
      obtain ⟨opening, inner, rfl, -, closes⟩ := Cursor.mem_typeArguments.mp member
      obtain ⟨rfl, rfl⟩ := List.cons.inj append_eq
      have found := closes.skipped token.span.stop more
      have missing : Cursor.afterTypeArguments? 1 token.span.stop (inner ++ more) = none := missing
      rw [missing] at found
      cases found
  · have closed : Cursor.isAt ⟨token :: rest, behind⟩ .less ≠ true := by simp [Cursor.isAt, less]
    rw [skipTypeArguments, if_neg closed]
    refine .inr ⟨rfl, fun arguments member more append_eq => less ?_⟩
    obtain ⟨opening, inner, rfl, opens, -⟩ := Cursor.mem_typeArguments.mp member
    rw [(List.cons.inj append_eq).1, opens]

theorem takes_skipTypeArguments (before : Cursor) :
    ⦃before.place⦄ skipTypeArguments ⦃⇓ skipped after =>
      ⌜if skipped then before.Takes (passes typeArguments) after else after = before⌝⦄ := by
  refine triple_iff.mpr ?_
  rintro cursor rfl
  obtain ⟨skipped, reaches, arguments, member, rest_eq⟩ | ⟨stays, -⟩ :=
    skipTypeArguments_cases cursor
  · rw [skipped]
    exact .passed reaches member rest_eq
  · rw [stays]
    rfl

/-- Type arguments are passed over, if there are any, and then a word may follow. -/
theorem place_typeArguments (before : Cursor) :
    ⦃before.place⦄ skipTypeArguments ⦃⇓ _ after => ⌜before.PassesTypeArguments after⌝⦄ := by
  refine triple_iff.mpr ?_
  rintro cursor rfl
  obtain ⟨-, reaches, arguments, member, rest_eq⟩ | ⟨stays, none_there⟩ :=
    skipTypeArguments_cases cursor
  · refine ⟨reaches, arguments, .inr member, rest_eq, ?_⟩
    rintro no_word ⟨others, rfl | member', word, later, rest_eq', word_eq⟩
    · obtain ⟨opening, inner, rfl, opens, -⟩ := Cursor.mem_typeArguments.mp member
      rw [rest_eq] at rest_eq'
      rw [← (List.cons.inj rest_eq').1, opens] at word_eq
      cases word_eq
    · have same := Cursor.typeArguments_unique member member' (rest_eq.symm.trans rest_eq')
      simp [Cursor.isAt, same, word_eq] at no_word
  · rw [stays]
    refine ⟨.refl, [], .inl rfl, rfl, ?_⟩
    rintro no_word ⟨arguments, rfl | member, word, later, rest_eq, word_eq⟩
    · simp [Cursor.isAt, rest_eq, word_eq] at no_word
    · exact none_there arguments member _ rest_eq

/-- The word is passed over, if it is there. -/
theorem passes_acceptWord (word : String) (before : Cursor) :
    ⦃before.place⦄ acceptWord word
      ⦃⇓ _ after => ⌜before.Takes (1 + passes (ofWord word)) after⌝⦄ := by
  refine triple_iff.mpr ?_
  rintro cursor rfl
  unfold acceptWord
  split
  · next found =>
    obtain ⟨reaches, fates, ⟨span, rfl⟩, rest_eq, -⟩ := Cursor.takes_word found
    exact .inr ⟨reaches, [.passed ⟨.word, word, span⟩], ⟨[_], ⟨span, rfl⟩, rfl⟩, rest_eq, trivial⟩
  · exact .nothing

@[grind =]
theorem advance_one (cursor : Cursor) : (advance 1 cursor).2 = cursor.tail := rfl

theorem place_advance_exact (n : Nat) (before : Cursor) :
    ⦃before.place⦄ advance n ⦃⇓ _ after => ⌜after = (advance n before).2⌝⦄ :=
  triple_iff.mpr fun _ here => here ▸ rfl

theorem place_missing_exact (before : Cursor) :
    ⦃before.place⦄ missing
      ⦃⇓ expr after => ⌜expr = .missing (.point before.here) ∧ after = before⌝⦄ :=
  triple_iff.mpr fun _ here => here ▸ ⟨rfl, rfl⟩

end Parser

end JavaOutline
