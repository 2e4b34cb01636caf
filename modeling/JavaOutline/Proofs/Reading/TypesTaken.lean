import Mathlib
import JavaOutline.Proofs.Reading.Taken
import JavaOutline.Proofs.Token.Characters

/-!
# The tokens of a type

The text of a type is put together from its tokens, in their order: words and marks as they are
written, and blanks around the words of a bound. Annotations in front of a type are passed over. So
the tokens that a type is read from have the fates of its reading.
-/

set_option mvcgen.warning false

open Std.Do
open scoped Computability

namespace JavaOutline

open Fate (passes annotation annotated passedGroup)

namespace Token

variable {token : Token}

theorem typeArgumentText_of_beginsType (begins : token.beginsType = true) :
    token.typeArgumentText = token.text := by
  simp only [beginsType, Bool.and_eq_true, Bool.or_eq_true, Bool.not_eq_true'] at begins
  rcases begins with ⟨-, free | primitive⟩
  · exact typeArgumentText_of_free free
  · exact typeArgumentText_of_primitive primitive

theorem IsSpelled.typeArgumentText_eq (spelled : token.IsSpelled) {kind : TokenKind}
    (mark : List Char) (known : (mark, kind) ∈ punctuation) (kind_eq : token.kind = kind) :
    token.typeArgumentText = .ofList mark := by
  have no_word : kind ≠ .word := by
    have others : ∀ mark ∈ punctuation, mark.2 ≠ .word := by decide
    exact others _ known
  rw [typeArgumentText_of_kind (kind_eq ▸ no_word), spelled _ known kind_eq.symm]

end Token

namespace Cursor

/-- One more token in front of the rest of a type. -/
theorem exists_typed_cons {token : Token} {rest : List Token} {after : Cursor}
    {text piece result : String} (part : token.isTypePart)
    (piece_eq : token.typeArgumentText = piece)
    (later : ∃ tokens, rest = tokens ++ after.rest ∧ (∀ token ∈ tokens, token.isTypePart) ∧
      result = text ++ piece ++ Fate.typeText (tokens.map .typed)) :
    ∃ tokens, token :: rest = tokens ++ after.rest ∧ (∀ token ∈ tokens, token.isTypePart) ∧
      result = text ++ Fate.typeText (tokens.map .typed) := by
  obtain ⟨tokens, rfl, parts, rfl⟩ := later
  refine ⟨token :: tokens, rfl, List.forall_mem_cons.mpr ⟨part, parts⟩, ?_⟩
  rw [List.map_cons, Fate.typeText_typed_cons, piece_eq, String.append_assoc]

/-- The text of the rest of a type is put together from its tokens. -/
theorem exists_of_typeRest? {depth behind : Nat} {text result : String} {rest : List Token}
    {after : Cursor} (spelled : ∀ token ∈ rest, token.IsSpelled)
    (found : typeRest? depth text behind rest = some (result, after)) :
    ∃ tokens, rest = tokens ++ after.rest ∧ (∀ token ∈ tokens, token.isTypePart) ∧
      result = text ++ Fate.typeText (tokens.map .typed) := by
  have nothing {text : String} {cursor : Cursor}
      (found : some (text, cursor) = some (result, after)) :
      ∃ tokens, cursor.rest = tokens ++ after.rest ∧ (∀ token ∈ tokens, token.isTypePart) ∧
        result = text ++ Fate.typeText (tokens.map .typed) := by
    obtain ⟨rfl, rfl⟩ := Prod.mk.inj (Option.some.inj found)
    exact ⟨[], rfl, nofun, String.append_empty.symm⟩
  fun_induction typeRest? depth text behind rest with
  | case1 | case4 | case6 | case7 => exact nothing found
  | case2 | case11 => cases found
  | case3 text behind token rest less induction =>
      obtain ⟨first, later⟩ := List.forall_mem_cons.mp spelled
      exact exists_typed_cons (by simp [Token.isTypePart, less])
        (Token.typeArgumentText_of_kind (by simp [less])) (induction later found)
  | case5 text behind token no_less dot word rest named induction =>
      obtain ⟨first, second, later⟩ := by simpa using spelled
      rw [Bool.and_eq_true, decide_eq_true_eq, Bool.not_eq_true'] at named
      have dot_eq := first.typeArgumentText_eq ['.'] (by decide) dot
      refine exists_typed_cons (by simp [Token.isTypePart, dot, TokenKind.isTypeArgument]) dot_eq ?_
      exact exists_typed_cons (by simp [Token.isTypePart, named.1, TokenKind.isTypeArgument])
        (Token.typeArgumentText_of_free named.2) (induction later found)
  | case8 behind depth text token rest kind_eq induction
  | case9 behind depth text token rest kind_eq induction =>
      obtain ⟨first, later⟩ := List.forall_mem_cons.mp spelled
      exact exists_typed_cons (by simp [Token.isTypePart, kind_eq])
        (Token.typeArgumentText_of_kind (by simp [kind_eq])) (induction later found)
  | case10 behind depth text token rest no_less no_greater allowed induction =>
      obtain ⟨first, later⟩ := List.forall_mem_cons.mp spelled
      exact exists_typed_cons (by simp [Token.isTypePart, allowed]) rfl (induction later found)

/-- Whether neither type arguments nor a word behind a dot comes next. -/
structure EndsTypeName (rest : List Token) : Prop where
  arguments : ∀ opening ∈ rest.head?, opening.kind ≠ .less
  member : ∀ dot word later, rest = dot :: word :: later → dot.kind = .dot → word.isName = false

theorem EndsTypeName.nil : EndsTypeName [] where
  arguments _ found := by cases found
  member _ _ _ short := by cases short

theorem EndsTypeName.cons {token : Token} {rest : List Token} (no_less : token.kind ≠ .less)
    (no_member : token.kind = .dot → ∀ word ∈ rest.head?, word.isName = false) :
    EndsTypeName (token :: rest) where
  arguments _ found := Option.some.inj found ▸ no_less
  member _ _ _ rest_eq is_dot := by
    obtain ⟨rfl, rfl⟩ := List.cons.inj rest_eq
    exact no_member is_dot _ rfl

/-- The rest of a type ends in front of what would go on with it. -/
theorem endsTypeName_of_typeRest? {depth behind : Nat} {text result : String} {rest : List Token}
    {after : Cursor} (found : typeRest? depth text behind rest = some (result, after)) :
    EndsTypeName after.rest := by
  have here {text : String} {cursor : Cursor}
      (found : some (text, cursor) = some (result, after)) : after = cursor :=
    (Prod.mk.inj (Option.some.inj found)).2.symm
  fun_induction typeRest? depth text behind rest with
  | case1 => exact here found ▸ .nil
  | case2 | case11 => cases found
  | case3 _ _ _ _ _ induction => exact induction found
  | case4 text behind token no_less dot =>
      exact here found ▸ .cons no_less fun _ _ found => by cases found
  | case5 _ _ _ _ _ _ _ _ induction => exact induction found
  | case6 text behind token no_less dot word rest unnamed =>
      refine here found ▸ .cons no_less fun _ next found => ?_
      exact Option.some.inj found ▸ Bool.eq_false_iff.mpr unnamed
  | case7 text behind token rest no_less no_dot =>
      exact here found ▸ .cons no_less fun is_dot => absurd is_dot no_dot
  | case8 _ _ _ _ _ _ induction => exact induction found
  | case9 _ _ _ _ _ _ induction => exact induction found
  | case10 _ _ _ _ _ _ _ _ induction => exact induction found
end Cursor

namespace Cursor

/-- Whether the tokens still to be read are those at the end of some source. -/
def IsScanned (cursor : Cursor) : Prop :=
  ∃ source : Source, (start (Token.scan 0 source.chars)).Reaches cursor

namespace IsScanned

variable {before after : Cursor}

theorem exists_inOrder (scanned : before.IsScanned) : ∃ source, before.InOrder source := by
  obtain ⟨source, reaches⟩ := scanned
  exact ⟨source, (inOrder_start (Token.inOrder_scan source)).reaches reaches⟩

@[grind →]
theorem reaches (scanned : before.IsScanned) (later : before.Reaches after) : after.IsScanned := by
  obtain ⟨source, reaches⟩ := scanned
  exact ⟨source, reaches.trans later⟩

theorem isSpelled (scanned : before.IsScanned) : ∀ token ∈ before.rest, token.IsSpelled := by
  obtain ⟨source, reaches⟩ := scanned
  obtain ⟨tokens, scan_eq, -⟩ := reaches.exists_append
  intro token member
  have scanned : token ∈ Token.scan 0 source.chars := by
    change Token.scan 0 source.chars = _ at scan_eq
    rw [scan_eq]
    exact List.mem_append_right _ member
  exact Token.isSpelled_of_mem_scanFrom scanned

end IsScanned

/-- The text of bracket pairs is put together from their tokens. -/
theorem exists_of_afterBrackets {behind : Nat} {rest : List Token}
    (spelled : ∀ token ∈ rest, token.IsSpelled) (text : String) :
    ∃ tokens, rest = tokens ++ (afterBrackets behind rest).2.rest ∧
      (∀ token ∈ tokens, token.isTypePart) ∧
      (∀ last ∈ tokens.getLast?, last.kind = .closeBracket) ∧
      (List.replicate (afterBrackets behind rest).1 "[]").foldl (· ++ ·) text =
        text ++ Fate.typeText (tokens.map .typed) := by
  fun_induction afterBrackets behind rest generalizing text with
  | case1 behind opening closing rest found pairs cursor after_eq induction =>
      obtain ⟨first, second, later⟩ := by simpa using spelled
      rw [Bool.and_eq_true, decide_eq_true_eq, decide_eq_true_eq] at found
      rw [after_eq] at induction
      obtain ⟨tokens, rfl, parts, ends, text_eq⟩ := induction later (text ++ "[]")
      have pair : opening.isTypePart ∧ closing.isTypePart := by
        simp [Token.isTypePart, found, TokenKind.isTypeArgument]
      refine ⟨opening :: closing :: tokens, rfl, List.forall_mem_cons.mpr ⟨pair.1,
        List.forall_mem_cons.mpr ⟨pair.2, parts⟩⟩, fun last last_eq => ?_, ?_⟩
      · rw [List.getLast?_cons_cons, List.getLast?_cons] at last_eq
        obtain rfl : tokens.getLast?.getD closing = last := Option.some.inj last_eq
        cases found_last : tokens.getLast? with
        | none => exact found.2
        | some last => exact ends last found_last
      have opening_eq := first.typeArgumentText_eq ['['] (by decide) found.1
      have closing_eq := second.typeArgumentText_eq [']'] (by decide) found.2
      rw [List.map_cons, List.map_cons, Fate.typeText_typed_cons, Fate.typeText_typed_cons,
        opening_eq, closing_eq]
      rw [List.replicate_succ, List.foldl_cons, text_eq, String.append_assoc]
      exact congrArg (text ++ ·) (@String.append_assoc "[" "]" _)
  | case2 | case3 =>
      have no_last : ∀ last ∈ ([] : List Token).getLast?, last.kind = .closeBracket :=
        fun _ found => by cases found
      exact ⟨[], rfl, List.forall_mem_nil _, no_last, String.append_empty.symm⟩

/-- Nothing goes on with a type behind its bracket pairs. -/
theorem EndsTypeName.not_typeGoesOn {read pairs : List Token} {after : Cursor}
    (name_ends : EndsTypeName (pairs ++ after.rest))
    (closes : ∀ last ∈ pairs.getLast?, last.kind = .closeBracket)
    (no_pair : after.isAtBrackets = false) : ¬TypeGoesOn (read ++ pairs) after.rest := by
  have no_pairs {last : Token} (last_eq : (read ++ pairs).getLast? = some last)
      (other : last.kind ≠ .closeBracket) : pairs = [] := by
    by_contra some_pairs
    rw [List.getLast?_append_of_ne_nil _ some_pairs] at last_eq
    exact other (closes last last_eq)
  intro goesOn
  obtain ⟨rest, behind⟩ := after
  cases goesOn with
  | pair _ opens closes => simp [isAtBrackets, isAt, isAhead, kindAhead?, ahead?, *] at no_pair
  | arguments last_eq other opens =>
      rw [no_pairs last_eq other] at name_ends
      exact name_ends.arguments _ rfl opens
  | member last_eq other is_dot named =>
      rw [no_pairs last_eq other] at name_ends
      exact Bool.false_ne_true ((name_ends.member _ _ _ rfl is_dot).symm.trans named)

end Cursor

namespace Fate

variable {fates : List Fate}

theorem typeText_eq_empty_of_mem_kstar {language : Language Fate}
    (each : ∀ fates ∈ language, typeText fates = "") (member : fates ∈ language∗) :
    typeText fates = "" := by
  obtain ⟨parts, rfl, parts_mem⟩ := Language.mem_kstar.mp member
  induction parts with
  | nil => rfl
  | cons part parts induction =>
      obtain ⟨part_mem, parts_mem⟩ := List.forall_mem_cons.mp parts_mem
      rw [List.flatten_cons, typeText_append, each part part_mem]
      exact induction parts_mem (Language.join_mem_kstar parts_mem)

theorem typeText_of_mem_passes {language : Language Token} (member : fates ∈ passes language) :
    typeText fates = "" := by
  obtain ⟨tokens, -, rfl⟩ := member
  exact typeText_map_passed tokens

theorem typeText_of_mem_passedGroup (member : fates ∈ passedGroup) : typeText fates = "" := by
  obtain ⟨read, read_mem, behind, -, rfl⟩ := member
  rw [typeText_append, typeText_of_mem_passes read_mem]
  rfl

theorem typeText_of_mem_annotation (member : fates ∈ annotation) : typeText fates = "" := by
  obtain ⟨_, ⟨sign, sign_mem, name, name_mem, rfl⟩, group, group_mem, rfl⟩ := member
  have name_eq : typeText name = "" := by
    rcases name_mem with rfl | ⟨first, first_mem, more, more_mem, rfl⟩
    · rfl
    · simp [typeText_of_mem_passes first_mem,
        typeText_eq_empty_of_mem_kstar (fun _ => typeText_of_mem_passes) more_mem]
  simp [typeText_of_mem_passes sign_mem, typeText_of_mem_passedGroup group_mem, name_eq]

/-- Tokens that are parts of the text of a type, behind annotations. -/
theorem append_map_typed_mem_reading {type : TypeRef} {first : Token} {tokens : List Token}
    (annotations : fates ∈ annotation∗) (parts : ∀ token ∈ first :: tokens, token.isTypePart)
    (text_eq : type.text = typeText ((first :: tokens).map typed)) :
    fates ++ (first :: tokens).map typed ∈ type.reading := by
  obtain ⟨part, later⟩ := List.forall_mem_cons.mp parts
  have later_mem : tokens.map typed ∈ types∗ := by
    refine Language.mem_kstar.mpr ⟨tokens.map fun token => [typed token], ?_, ?_⟩
    · rw [List.map_eq_flatMap, List.flatMap_def]
    · intro part member
      obtain ⟨token, token_mem, rfl⟩ := List.mem_map.mp member
      exact ⟨token, later token token_mem, rfl⟩
  have first_mem : [typed first] ∈ types := ⟨first, part, rfl⟩
  have type_mem : fates ++ (first :: tokens).map typed ∈ annotated :=
    Language.append_mem_mul annotations (Language.append_mem_mul first_mem later_mem)
  have alone : annotated ≤ annotated * (ampersand * annotated)∗ :=
    (mul_one annotated).ge.trans (mul_le_mul_right one_le_kstar annotated)
  refine ⟨alone type_mem, ?_⟩
  rw [typeText_append, typeText_eq_empty_of_mem_kstar (fun _ => typeText_of_mem_annotation)
    annotations, String.empty_append, text_eq]

end Fate

/-- A type that goes on behind an ampersand. -/
theorem Cursor.Takes.ampersand {before middle after : Cursor} {left right : TypeRef} {span : Span}
    (first : before.Takes left.reading middle) (scanned : middle.IsScanned)
    (found : middle.isAt .amp) (second : middle.tail.Takes right.reading after) :
    before.Takes (TypeRef.reading ⟨left.text ++ "&" ++ right.text, span⟩) after := by
  obtain ⟨reaches, fates, ⟨fates_mem, text_eq⟩, rest_eq, before_middle⟩ := first
  obtain ⟨reaches', fates', ⟨fates_mem', text_eq'⟩, rest_eq', before_after⟩ := second
  obtain ⟨rest, behind⟩ := middle
  cases rest with
  | nil => cases found
  | cons token rest =>
      have kind_eq : token.kind = .amp := by simpa [Cursor.isAt] using found
      have amp_eq := (scanned.isSpelled token List.mem_cons_self).typeArgumentText_eq ['&']
        (by decide) kind_eq
      refine ⟨reaches.trans (.trans (.tail .refl) reaches'), fates ++ .typed token :: fates',
        ⟨?_, ?_⟩, ?_, ?_⟩
      · have amp_mem : [Fate.typed token] ∈ Fate.ampersand := ⟨token, kind_eq, rfl⟩
        obtain ⟨first, first_mem, later, later_mem, rfl⟩ := fates_mem
        obtain ⟨first', first_mem', later', later_mem', rfl⟩ := fates_mem'
        have more : Fate.ampersand * annotated * (Fate.ampersand * annotated)∗ ≤ _ :=
          mul_kstar_le_kstar
        have other := more (Language.append_mem_mul
          (Language.append_mem_mul amp_mem first_mem') later_mem')
        have both : (Fate.ampersand * annotated)∗ * (Fate.ampersand * annotated)∗ ≤ _ :=
          (kstar_mul_kstar _).le
        have joined := Language.append_mem_mul first_mem
          (both (Language.append_mem_mul later_mem other))
        simpa only [List.append_assoc, List.cons_append, List.nil_append] using joined
      · rw [Fate.typeText_append, Fate.typeText_typed_cons, amp_eq, text_eq, text_eq',
          String.append_assoc]
      · rw [rest_eq, Fate.tokens_append, List.append_assoc]
        exact congrArg (Fate.tokens fates ++ token :: ·) rest_eq'
      · have middle_eq : token :: rest = Fate.tokens (.typed token :: fates') ++ after.rest :=
          congrArg (token :: ·) rest_eq'
        exact Fate.before_append.mpr ⟨middle_eq ▸ before_middle, before_after⟩

namespace Parser

theorem place_skipBracketPairs_exact (before : Cursor) :
    ⦃before.place⦄ skipBracketPairs ⦃⇓ pairs after =>
      ⌜before.Reaches after ∧ (pairs, after) = Cursor.afterBrackets before.behind before.rest⌝⦄ :=
  triple_iff.mpr fun _ here => here ▸ ⟨Cursor.reaches_afterBrackets _ _, rfl⟩

theorem place_typeRest? (text : String) (before : Cursor) (scanned : before.IsScanned) :
    ⦃before.place⦄ typeRest? text ⦃⇓ result after =>
      ⌜before.Reaches after ∧ ∀ whole, result = some whole → ∃ tokens,
        before.rest = tokens ++ after.rest ∧ (∀ token ∈ tokens, token.isTypePart) ∧
          whole = text ++ Fate.typeText (tokens.map .typed) ∧
          Cursor.EndsTypeName after.rest⌝⦄ := by
  refine triple_iff.mpr ?_
  rintro cursor rfl
  unfold typeRest?
  split
  · next found =>
    refine ⟨Cursor.reaches_typeRest? found, ?_⟩
    rintro _ ⟨rfl⟩
    obtain ⟨tokens, rest_eq, parts, text_eq⟩ :=
      Cursor.exists_of_typeRest? scanned.isSpelled found
    exact ⟨tokens, rest_eq, parts, text_eq, Cursor.endsTypeName_of_typeRest? found⟩
  · exact ⟨.refl, nofun⟩

theorem takes_typeRef? (before : Cursor) (scanned : before.IsScanned) :
    ⦃before.place⦄ typeRef? ⦃⇓ result after =>
      ⌜(result = none → after = before) ∧
        ∀ type, result = some type → before.Takes type.written after⌝⦄ := by
  mvcgen [typeRef?, takes_skipAnnotations, place_typeRest?, place_skipBracketPairs_exact,
    place_advance_exact, -place_advance, -place_advance_one, -place_advance_two, -onward_advance,
    -onward_typeRef?, -placed_typeRef?, -onward_skipAnnotations, -onward_skipBracketPairs,
    -place_skipBracketPairs, -onward_typeRest?]
  case vc1 | vc3 | vc5 => grind
  case vc2 here _ _ annotations _ _ _ _ _ _ read =>
    subst here
    subst read
    exact scanned.reaches (annotations.reaches.trans (.tail .refl))
  case vc4 here _ _ annotations first _ head begins _ _ read _ text _ _ later pairs whole _ after =>
    subst here
    subst read
    refine ⟨(absurd · (Option.some_ne_none _)), ?_⟩
    rintro _ ⟨rfl⟩
    obtain ⟨reaches, fates, fates_mem, rest_eq, before_type⟩ := annotations
    obtain ⟨reaches', found⟩ := later
    obtain ⟨tokens, rest_eq', parts, rfl, name_ends⟩ := found _ rfl
    obtain ⟨reaches'', after_eq⟩ := after
    have onward := reaches.trans (.trans (.tail .refl) reaches')
    obtain ⟨pairs, rest_eq'', parts', closes, text_eq⟩ :=
      Cursor.exists_of_afterBrackets (scanned.reaches onward).isSpelled
        (first.text ++ Fate.typeText (tokens.map .typed))
    rw [← after_eq] at rest_eq'' text_eq
    rw [advance_one] at rest_eq'
    obtain ⟨-, -, -, -, no_pair⟩ :=
      Cursor.passesPairs_afterBrackets (Cursor.behind _) (Cursor.rest _)
    rw [← after_eq] at no_pair
    have free := Token.typeArgumentText_of_beginsType begins
    rw [Cursor.rest_tail head, rest_eq'', ← List.append_assoc] at rest_eq'
    rw [head, rest_eq'] at rest_eq before_type
    refine Cursor.Takes.upTo ⟨onward.trans reaches'', _,
      @Fate.append_map_typed_mem_reading fates _ first (tokens ++ pairs) fates_mem ?_ ?_, ?_, ?_⟩
      fun read rest_read => ?_
    · have part : first.isTypePart := by
        simp only [Token.beginsType, Bool.and_eq_true, decide_eq_true_eq] at begins
        simp [Token.isTypePart, begins.1, TokenKind.isTypeArgument]
      exact List.forall_mem_cons.mpr ⟨part, List.forall_mem_append.mpr ⟨parts, parts'⟩⟩
    · exact text_eq.trans (by simp [free, String.append_assoc])
    · rw [Fate.tokens_append, Fate.tokens_map_typed, List.append_assoc]
      exact rest_eq
    · exact Fate.before_append.mpr
        ⟨by rwa [Fate.tokens_map_typed], Fate.before_map_typed _ _⟩
    · have read_eq : Fate.tokens fates ++ first :: tokens ++ pairs = read := by
        refine List.append_cancel_right (Eq.trans ?_ (rest_eq.symm.trans rest_read))
        simp only [List.append_assoc, List.cons_append]
      rw [rest_eq''] at name_ends
      exact read_eq ▸ name_ends.not_typeGoesOn closes no_pair

theorem takes_typeRef (before : Cursor) (scanned : before.IsScanned) :
    ⦃before.place⦄ typeRef
      ⦃⇓ type after => ⌜before.Takes type.whole after⌝⦄ := by
  mvcgen [typeRef, takes_typeRef?, -onward_typeRef, -placed_typeRef, -onward_typeRef?,
    -placed_typeRef?]
  case vc1 here => exact here ▸ scanned
  case vc2 here _ _ _ _ read => exact here ▸ (read.2 _ rfl).inr
  case vc3 here _ _ _ read =>
    subst here
    obtain ⟨rfl, -⟩ := read
    exact .refl (.inl ⟨rfl, rfl⟩)

/-- A type goes on behind ampersands from wherever it was read. -/
theorem takes_castType? (type : TypeRef) (before : Cursor) (scanned : before.IsScanned) :
    ⦃before.place⦄ castType? type ⦃⇓ result after => ⌜∀ origin : Cursor,
      origin.Takes type.reading before →
        ∀ whole, result = some whole → origin.Takes whole.reading after⌝⦄ := by
  refine triple_iff.mpr ?_
  rintro cursor rfl origin takes
  let Holds (result : Option TypeRef) (after : Cursor) : Prop :=
    after.IsScanned ∧ ∀ type, result = some type → origin.Takes type.reading after
  have start : Holds (some type) cursor := ⟨scanned, by rintro _ ⟨rfl⟩; exact takes⟩
  refine And.right (triple_iff.mp (iterate_invariant Holds (fun result => ?_) _) cursor start)
  mvcgen [takes_typeRef?, place_accept_exact, -onward_typeRef?, -placed_typeRef?, -place_accept,
    -place_accept_found, -place_accept_eq]
  case vc2 holds _ accepted _ amp =>
    obtain ⟨-, rfl⟩ := amp
    rw [if_pos accepted]
    exact holds.1.reaches (.tail .refl)
  case vc3 holds _ accepted _ amp _ more _ _ read =>
    obtain ⟨rfl, rfl⟩ := amp
    rw [if_pos accepted] at read
    have later := (read.2 _ rfl).of_upTo
    refine ⟨holds.1.reaches (.trans (.tail .refl) later.reaches), ?_⟩
    rintro _ ⟨rfl⟩
    exact (holds.2 _ rfl).ampersand holds.1 accepted later
  case vc4 holds _ accepted _ amp _ _ _ read =>
    obtain ⟨rfl, -⟩ := read
    obtain ⟨-, rfl⟩ := amp
    rw [if_pos accepted]
    exact ⟨holds.1.reaches (.tail .refl), fun _ found => absurd found.symm (Option.some_ne_none _)⟩
  case vc5 holds _ refused _ amp =>
    obtain ⟨-, rfl⟩ := amp
    rw [if_neg refused]
    exact holds

end Parser

end JavaOutline
